import Descent.Event

/-! The effects of a run: it may report events, and it may halt without an answer. A run over
tokens in memory has no other effects; a run over a stream also changes the stream's window. -/
namespace Descent

/-- Why a run has no answer. None of the reasons is a parse error: the bound on repetitions and
rules was spent, a caller moved past the end of the input, or a permutation had no value for a
slot. -/
inductive Halt where
  | boundSpent
  | pastEnd (position : Position)
  | slotUnfilled (slot : Nat)
deriving DecidableEq, Repr

def Halt.message : Halt → String
  | boundSpent => "the bound on the run was spent"
  | pastEnd p => "advance past end of input at " ++ p.describe
  | slotUnfilled slot => "permutation slot " ++ toString slot ++ " was never filled"

/-- Monads that runs live in. -/
class MonadRun (m : Type → Type) extends Monad m where
  halt : {α : Type} → Halt → m α
  report : Event → m Unit
  /-- Reports that a parser is built, and what is reported meanwhile, unless it was built before. -/
  build : Supplier → List Event → m Unit
  /-- Deferred parsers are made anew, and have not been built then. -/
  renew : (Supplier → Bool) → m Unit

abbrev Outcome := Except Halt

instance : MonadRun Outcome where
  halt := .error
  report _ := .ok ()
  build _ _ := .ok ()
  renew _ := .ok ()

/-- What a run has changed so far: its source, the events it reported, oldest first, and which of
the deferred parsers have been built. -/
structure Journal (σ : Type) where
  source : σ
  events : List Event
  built : List Supplier

/-- A parser is built once. -/
def Journal.build {σ : Type} (j : Journal σ) (supplier : Supplier) (made : List Event) :
    Journal σ :=
  if supplier ∈ j.built then j
  else ⟨j.source, j.events ++ .parserBuilt supplier :: made, supplier :: j.built⟩

def Journal.renew {σ : Type} (j : Journal σ) (renewed : Supplier → Bool) : Journal σ :=
  { j with built := j.built.filter (!renewed ·) }

section Journal

variable {σ : Type} {j : Journal σ} {supplier : Supplier}

theorem Journal.build_of_mem (h : supplier ∈ j.built) (made : List Event) :
    j.build supplier made = j :=
  if_pos h

theorem Journal.build_of_notMem (h : supplier ∉ j.built) (made : List Event) :
    j.build supplier made =
      ⟨j.source, j.events ++ .parserBuilt supplier :: made, supplier :: j.built⟩ :=
  if_neg h

theorem Journal.events_build (j : Journal σ) (supplier : Supplier) (made : List Event) :
    (j.build supplier made).events =
      j.events ++ if supplier ∈ j.built then [] else .parserBuilt supplier :: made := by
  unfold build
  split
  · exact (List.append_nil _).symm
  · rfl

/-- What has been built is not built again, whatever would be reported then. -/
theorem Journal.build_build (j : Journal σ) (supplier : Supplier) (made made' : List Event) :
    (j.build supplier made).build supplier made' = j.build supplier made := by
  apply build_of_mem
  unfold build
  split
  · assumption
  · exact List.mem_cons_self

/-- What is made anew is built again. -/
theorem Journal.events_build_renew (j : Journal σ) {renewed : Supplier → Bool}
    (h : renewed supplier = true) (made : List Event) :
    ((j.renew renewed).build supplier made).events =
      j.events ++ .parserBuilt supplier :: made := by
  have hanew : supplier ∉ (j.renew renewed).built := by simp [renew, h]
  rw [events_build, if_neg hanew, renew]

@[simp] theorem Journal.source_build (j : Journal σ) (supplier : Supplier) (made : List Event) :
    (j.build supplier made).source = j.source := by
  unfold build
  split <;> rfl

end Journal

abbrev Run (σ : Type) := StateT (Journal σ) Outcome

instance {σ : Type} : MonadRun (Run σ) where
  halt h := throw h
  report e := modify fun j => { j with events := j.events ++ [e] }
  build supplier made := modify (·.build supplier made)
  renew renewed := modify (·.renew renewed)

end Descent
