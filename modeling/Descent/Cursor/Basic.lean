import Descent.Run
import Descent.Token

/-! Cursors: a cursor shows the token in front of it and where that token stands. Moving on gives
a new cursor, so the old one can be returned to at any time. -/
namespace Descent

class Cursor (C : Type) (τ : outParam Type) where
  current : C → Option τ
  position : C → Position

/-- Cursors that move on in runs of `m`. At the end of the input there is nothing to move past,
and the run halts. -/
class Advance (m : Type → Type) (C : Type) where
  advance : C → m C

export Advance (advance)

namespace Cursor

variable {C τ : Type} [Cursor C τ]

def offset (c : C) : Nat := (position c).offset

def isEnd (c : C) : Bool := (current c).isNone

def level (c : C) : Level := .ofPosition (position c)

def same (a b : C) : Bool := offset a == offset b

/-- Moves on to the end: the tokens passed, the position after each, and the last cursor. -/
def drain {m : Type → Type} [MonadRun m] [Advance m C] : Nat → C → m (List (τ × Position) × C)
  | 0, _ => MonadRun.halt .boundSpent
  | bound + 1, c => do
    match current c with
    | none => return ([], c)
    | some t =>
      let next ← advance c
      let (passed, last) ← drain bound next
      return ((t, position next) :: passed, last)

def inspect [Token τ] (kind : String) (c : C) : String :=
  kind ++ " \x7b position: " ++ (position c).inspect ++ ", current: " ++
    (match current c with
      | none => "None"
      | some t => "Some(" ++ Token.quoted t ++ ")") ++ " \x7d"

end Cursor

end Descent
