import Descent.Proofs.Tracing.Nested

/-! Wrappers change nothing but the log. Traced parsers are told apart by marks: once each has a
mark of its own, a report says which wrapper it comes from, and to erase wrappers is to leave out
the reports with their marks. Where a deferred parser is replaced by what it builds, the log is left
without what is reported while it is built. -/
namespace Descent

namespace Event

def rename (f : String → String) : Event → Event
  | entered parser line column => entered (f parser) line column
  | succeeded parser consumed => succeeded (f parser) consumed
  | failed parser line column consumed => failed (f parser) line column consumed
  | e => e

variable {f : String → String} {e : Event}

variable {C τ α : Type} [Cursor C τ]

@[simp] theorem rename_opening (name : String) (c : C) :
    (opening name c).rename f = opening (f name) c := rfl

end Event

/-- The second log is the first without the reports of erased wrappers, in the same order. Marks of
traced parsers that are shown give way to their labels, and reports with other marks are left out.
So are those of parsers that are not kept: that one is built, and what is reported meanwhile. -/
inductive Erased (label : String → String) (shown : String → Prop) (kept : Supplier → Prop) :
    List Event → List Event → Prop where
  | nil : Erased label shown kept [] []
  | stays {e : Event} {log log' : List Event} (hm : ∀ mark ∈ e.parser?, shown mark)
      (hs : ∀ s ∈ e.supplier?, kept s) (h : Erased label shown kept log log') :
      Erased label shown kept (e :: log) (e.rename label :: log')
  | hidden {e : Event} {mark : String} {log log' : List Event} (he : e.parser? = some mark)
      (hm : ¬shown mark) (h : Erased label shown kept log log') :
      Erased label shown kept (e :: log) log'
  | replaced {s : Supplier} {log log' : List Event} (hs : ¬kept s)
      (h : Erased label shown kept log log') : Erased label shown kept
        (.parserBuilt s :: Grammar.permutationsBuilt s.permutations ++ log) log'

namespace Erased

variable {label : String → String} {shown : String → Prop} {kept : Supplier → Prop}
  {log log' more more' : List Event}

theorem append (h : Erased label shown kept log log') (hmore : Erased label shown kept more more') :
    Erased label shown kept (log ++ more) (log' ++ more') := by
  induction h with
  | nil => exact hmore
  | stays hm hs _ ih => exact .stays hm hs ih
  | hidden he hm _ ih => exact .hidden he hm ih
  | replaced hs _ ih =>
    rw [List.append_assoc]
    exact .replaced hs ih

section Enclosed

variable {C τ α : Type} [Cursor C τ] {r : Reply C τ α} {c : C} {mark : String}

end Enclosed

end Erased

namespace LogRelation

end LogRelation

namespace Grammar

section Fits

variable {σ C τ : Type} [Cursor C τ] [Advance (Run σ) C] [DecidableEq τ] [Token τ]
  (label : String → String) (bound : Nat) (parsers : String → Parser (Run σ) C τ Value)

end Fits

variable {σ C τ : Type} [Cursor C τ] [Advance (Run σ) C] [DecidableEq τ] [Token τ] [Steady σ C]
  [Orderly σ C]

end Grammar

end Descent
