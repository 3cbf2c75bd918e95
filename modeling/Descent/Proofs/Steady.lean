import Descent.Proofs.Forward
import Descent.Stream.Cursor

/-! Cursors that can be relied on: moving on from a token never halts, and what it comes to depends
on nothing but the source. Cursors over tokens in memory and cursors over streams are so, whatever
the reader of a stream does. -/
namespace Descent

/-- Moving on from a token has one result for each source. -/
class Steady (σ C : Type) {τ : outParam Type} [Cursor C τ] [Advance (Run σ) C] : Prop where
  advance {c : C} : (Cursor.current c).isSome →
    InStep Eq Eq (advance c : Run σ C) (advance c : Run σ C)

instance {σ τ : Type} : Steady σ (TokenCursor τ) where
  advance h := by
    rw [TokenCursor.advance_eq h]
    exact .pure rfl

/-- What is seen at `offset`, and the window after a look there. A failure is the end of the input,
and the window keeps it. -/
def Window.look (w : Window) (encoding : Encoding) (offset : Nat) :
    Option (Char × Nat) × Window :=
  let served := w.charAt encoding offset
  match served.result with
  | .ok ahead => (ahead, served.window)
  | .error message => (none, { served.window with error := some message })

def Window.lookEvents (w : Window) (encoding : Encoding) (offset : Nat) : List Event :=
  let served := w.charAt encoding offset
  match served.result with
  | .ok _ => served.events
  | .error message => served.events ++ [.readFailed offset none message]

namespace WindowCursor

/-- To fetch a character is to look. -/
theorem fetch_eq (encoding : Encoding) (offset : Nat) (j : Journal Window) :
    fetch encoding offset j = .ok ((j.source.look encoding offset).1,
      ⟨(j.source.look encoding offset).2,
        j.events ++ j.source.lookEvents encoding offset, j.built⟩) := by
  rw [Window.look, Window.lookEvents]
  dsimp only
  cases h : (j.source.charAt encoding offset).result with
  | ok ahead =>
    simp only [fetch, bind, StateT.bind, get, getThe, MonadStateOf.get, StateT.get, pure,
      Except.pure, Except.bind, h]
    rfl
  | error message =>
    simp only [fetch, bind, StateT.bind, get, getThe, MonadStateOf.get, StateT.get, pure,
      Except.pure, Except.bind, h]
    rw [← List.append_assoc]
    rfl

/-- What is fetched, and the window after that, depend on the window alone. -/
theorem fetch_inStep (encoding : Encoding) (offset : Nat) :
    InStep Eq Eq (fetch encoding offset) (fetch encoding offset) := by
  intro j k hs
  rw [InStepFrom, fetch_eq, fetch_eq, hs]
  exact .answered ⟨rfl, rfl⟩

instance : Steady Window WindowCursor where
  advance {c} h := by
    obtain ⟨ahead, position, encoding, rule⟩ := c
    cases ahead with
    | none => cases h
    | some next =>
      refine (fetch_inStep encoding _).bind ?_
      rintro _ _ ⟨⟩
      exact .pure rfl

end WindowCursor

end Descent
