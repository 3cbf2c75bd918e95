import Descent.Proofs.Invariant
import Descent.Proofs.Tracing.Retraced

/-! The log of a run is well nested. -/
namespace Descent

variable {σ C τ α : Type} [Cursor C τ]

def Reply.Closes (name : String) (c : C) : Reply C τ α → Event → Prop
  | .ok _ d, e => ∃ n, e = .succeeded name n ∧ Cursor.offset c + n = Cursor.offset d
  | .fail f, e => ∃ consumed,
    e = .failed name f.error.position.line f.error.position.column consumed ∧
      (consumed = true ↔ Cursor.offset f.cursor ≠ Cursor.offset c)

/-- Logs in which every traced parser that begins is closed, after the log of the parser inside.
`R` says which parsers may be inside, by name, and what they did. -/
inductive Nested (R : String → C → Reply C τ α → List Event → Prop) : List Event → Prop where
  | nil : Nested R []
  | other {e : Event} {log : List Event} (he : e.parser? = none) (h : Nested R log) :
    Nested R (e :: log)
  | traced {name : String} {c : C} {r : Reply C τ α} {e : Event} {inner log : List Event}
    (hr : R name c r inner) (hinner : Nested R inner) (he : r.Closes name c e)
    (h : Nested R log) : Nested R (.opening name c :: inner ++ e :: log)

variable {R : String → C → Reply C τ α → List Event → Prop} {log more : List Event}

theorem Nested.append (h : Nested R log) (h' : Nested R more) :
    Nested R (log ++ more) := by
  induction h with
  | nil => exact h'
  | other he _ ih => exact .other he ih
  | traced hr hinner he _ _ ih =>
    rw [List.append_assoc, List.cons_append, List.cons_append]
    exact .traced hr hinner he ih

variable (R) in
def LogRelation.nested : LogRelation where
  rel log log' := log = log' ∧ Nested R log
  kept _ := True
  nil := ⟨rfl, .nil⟩
  append h h' := ⟨by rw [h.1, h'.1], h.2.append h'.2⟩
  plain he := ⟨rfl, .other he.1 .nil⟩
  built _ := ⟨rfl, .other rfl .nil⟩

namespace Grammar

section Parts

variable {τ : Type}

end Parts

variable {σ C τ : Type} [Cursor C τ] [Advance (Run σ) C] [Steady σ C] [Orderly σ C]
  [DecidableEq τ] [Token τ] {rules : String → Grammar τ} {bound depth : Nat}
  {g whole : Grammar τ} {c : C} {r : Reply C τ Value} {j k : Journal σ}

variable (σ) in
def notBefore (start : C) : Invariant σ C τ where
  cursor c := Cursor.offset start ≤ Cursor.offset c
  error _ := True
  excused _ _ _ := True
  advance {c} hc ht := by
    intro i j hs
    have hsteady : Matched _ _ _ := Steady.advance ht hs
    unfold InStepFrom
    generalize hx : (advance c : Run σ C) i = x at hsteady ⊢
    generalize hy : (advance c : Run σ C) j = y at hsteady ⊢
    cases hsteady with
    | answered h => exact .answered ⟨⟨h.1, Nat.le_trans hc (Orderly.offset_le hy)⟩, h.2⟩
    | spent => exact .spent
  merge _ _ := trivial
  relabel _ _ := trivial
  message _ _ := trivial
  found _ _ _ := trivial
  misplaced _ _ := trivial

/-- No parser ends in front of its start. -/
theorem offset_le_of_ok
    (h : (g.parser bound (ruleParser rules bound depth) c : Run σ _) j = .ok (r, k)) :
    Cursor.offset c ≤ Cursor.offset r.cursor := by
  have hadmits (rules : String → Parser (Run σ) C τ Value) (g : Grammar τ) :
      g.Every ((notBefore σ c).Admits bound rules) :=
    Invariant.every_admits _ bound rules (fun _ => trivial) (fun _ _ _ => trivial) g
  exact ((notBefore σ c).parser_ok (fun _ name => hadmits _ (rules name)) (hadmits _ g)
    (Nat.le_refl _) h).1

end Grammar

end Descent
