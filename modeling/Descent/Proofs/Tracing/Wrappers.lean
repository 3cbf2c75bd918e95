import Descent.Proofs.Tracing.Basic

/-! What a traced parser adds to a log: a report before that of the parser inside, and one after
it that says how the parser ended. -/
namespace Descent

variable {σ C τ α : Type} [Cursor C τ]

def Reply.enclose (r : Reply C τ α) (c : C) (log : List Event) : Option String → List Event
  | none => log
  | some name => .opening name c :: log ++ [r.closing name c]

namespace Parser

def tracedAs {m : Type → Type} [MonadRun m] (p : Parser m C τ α) :
    Option String → Parser m C τ α
  | none => p
  | some name => traced p name

def Ran (p : Parser (Run σ) C τ α) (c : C) (r : Reply C τ α) (log : List Event) : Prop :=
  ∃ j k, p c j = .ok (r, k) ∧ k.events = j.events ++ log

variable {p q : Parser (Run σ) C τ α} {name : String}

/-- A wrapper mirrors another if what is inside does, and enclosing keeps the logs together. -/
theorem mirrors_tracedAs {L : LogRelation} {name' : Option String} (h : Mirrors L p q)
    (henclose : ∀ c r log log', p.Ran c r log → L.rel log log' →
      L.rel (r.enclose c log (some name)) (r.enclose c log' name')) :
    Mirrors L (traced p name) (q.tracedAs name') := by
  intro c j k r hrun
  obtain ⟨i, hp, rfl⟩ := traced_eq_ok_iff.1 hrun
  obtain ⟨log, log', hlog, hi, hq⟩ := h c hp
  refine ⟨_, _, henclose c r log log' ⟨_, _, hp, hi⟩ hlog, ?_, fun j' hj => ?_⟩
  · rw [Reply.enclose]
    simp only [hi, List.append_assoc, List.cons_append, List.nil_append]
  · cases name' with
    | none =>
      obtain ⟨i', hq, hagree, hi'⟩ := hq j' ⟨hj.source, hj.built⟩
      exact ⟨i', hq, ⟨hagree.source, hagree.built⟩, hi'⟩
    | some name' =>
      obtain ⟨i', hq, hagree, hi'⟩ :=
        hq { j' with events := j'.events ++ [.opening name' c] } ⟨hj.source, hj.built⟩
      refine ⟨_, traced_eq_ok_iff.2 ⟨i', hq, rfl⟩, ⟨hagree.source, hagree.built⟩, ?_⟩
      rw [Reply.enclose]
      simp only [hi', List.append_assoc, List.cons_append, List.nil_append]

end Parser

end Descent
