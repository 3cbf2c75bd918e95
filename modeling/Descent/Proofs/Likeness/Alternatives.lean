import Descent.Parser.Choice
import Descent.Parser.Diagnosis
import Descent.Parser.Lookahead
import Descent.Proofs.Likeness.Basic
import Mathlib.Data.List.Forall2

/-! Alternatives, parsers that return to where they started, and parsers with changed errors or
reports are alike when their parts are. What they decide depends on whether a failure consumed
input, and on alike inputs that is the same. -/
namespace Descent.Likeness

variable {σ σ' C C' τ α β : Type} [Cursor C τ] [Cursor C' τ] [Advance (Run σ) C]
  [Advance (Run σ') C'] [DecidableEq τ] {L : Likeness σ σ' C C' τ} {V : α → β → Prop}
  {p p' : Parser (Run σ) C τ α} {q q' : Parser (Run σ') C' τ β}

theorem alike_optional (h : L.Alike V p q) :
    L.Alike (Option.Rel V) (Parser.optional p) (Parser.optional q) := by
  intro c c' hc
  refine (h hc).bind ?_
  intro _ _ hr
  cases hr with
  | ok hv hd => exact .pure (.ok (.some hv) hd)
  | fail hf => exact inStep_commit hf hc (.pure (.ok .none hc))

theorem alike_orElse (h : L.Alike V p q) (h' : L.Alike V p' q') :
    L.Alike V (Parser.orElse p p') (Parser.orElse q q') := by
  intro c c' hc
  refine (h hc).bind ?_
  intro _ _ hr
  cases hr with
  | ok hv hd => exact .pure (.ok hv hd)
  | fail hf =>
    apply inStep_commit hf hc
    refine (h' hc).bind ?_
    intro _ _ hr
    cases hr with
    | ok hv hd => exact .pure (.ok hv hd)
    | fail hg => exact .pure (.fail (merge_failures hf hg))

theorem after_failures {f : Failure C τ} {f' : Failure C' τ} {o : Option (Failure C τ)}
    {o' : Option (Failure C' τ)} (hf : L.Failures f f') (ho : Option.Rel L.Failures o o') :
    L.Failures (f.after o) (f'.after o') := by
  cases ho with
  | none => exact hf
  | some hg => exact merge_failures hg hf

/-- The alternatives in turn, whatever failed before them. -/
theorem alike_choiceAfter {ps : List (Parser (Run σ) C τ α)} {qs : List (Parser (Run σ') C' τ β)}
    (h : List.Forall₂ (L.Alike V) ps qs) {o : Option (Failure C τ)} {o' : Option (Failure C' τ)}
    (ho : Option.Rel L.Failures o o') :
    L.Alike V (Parser.choiceAfter o ps) (Parser.choiceAfter o' qs) := by
  induction h generalizing o o' with
  | nil =>
    intro c c' hc
    refine .pure (.fail ?_)
    cases ho with
    | none => exact ⟨L.message _ hc, hc⟩
    | some hf => exact hf
  | cons hp _ ih =>
    intro c c' hc
    refine (hp hc).bind ?_
    intro _ _ hr
    cases hr with
    | ok hv hd => exact .pure (.ok hv hd)
    | fail hf => exact inStep_commit hf hc (ih (.some (after_failures hf ho)) hc)

theorem alike_choice {ps : List (Parser (Run σ) C τ α)} {qs : List (Parser (Run σ') C' τ β)}
    (h : List.Forall₂ (L.Alike V) ps qs) : L.Alike V (Parser.choice ps) (Parser.choice qs) :=
  alike_choiceAfter h .none

theorem alike_attempt (h : L.Alike V p q) :
    L.Alike V (Parser.attempt p) (Parser.attempt q) := by
  intro c c' hc
  refine (h hc).bind ?_
  intro _ _ hr
  cases hr with
  | ok hv hd => exact .pure (.ok hv hd)
  | fail hf => exact .pure (.fail ⟨hf.1, hc⟩)

theorem alike_lookAhead (h : L.Alike V p q) :
    L.Alike V (Parser.lookAhead p) (Parser.lookAhead q) := by
  intro c c' hc
  refine (h hc).bind ?_
  intro _ _ hr
  cases hr with
  | ok hv _ => exact .pure (.ok hv hc)
  | fail hf => exact .pure (.fail hf)

theorem alike_notFollowedBy (h : L.Alike V p q) :
    L.Alike Eq (Parser.notFollowedBy p) (Parser.notFollowedBy q) := by
  intro c c' hc
  refine (h hc).bind ?_
  rintro _ _ (_ | _)
  · exact .pure (.fail ⟨L.message _ hc, hc⟩)
  · exact .pure (.ok rfl hc)

theorem alike_ensure {test : α → Bool} {test' : β → Bool} {reason : α → String}
    {reason' : β → String} (h : L.Alike V p q) (ht : ∀ v w, V v w → test v = test' w)
    (hr : ∀ v w, V v w → reason v = reason' w) :
    L.Alike V (Parser.ensure p test reason) (Parser.ensure q test' reason') := by
  intro c c' hc
  refine (h hc).bind ?_
  intro _ _ hr
  cases hr with
  | ok hv hd =>
    refine .ite (by rw [ht _ _ hv]) (fun _ => .pure (.ok hv hd)) fun _ => ?_
    rw [hr _ _ hv]
    exact .pure (.fail ⟨L.message _ hc, hc⟩)
  | fail hf => exact .pure (.fail hf)

theorem alike_mapError {f f' : ParseError τ → ParseError τ} (h : L.Alike V p q)
    (hf : ∀ e e', L.error e e' → L.error (f e) (f' e')) :
    L.Alike V (Parser.mapError p f) (Parser.mapError q f') := by
  intro c c' hc
  refine (h hc).bind ?_
  intro _ _ hr
  cases hr with
  | ok hv hd => exact .pure (.ok hv hd)
  | fail hg => exact .pure (.fail ⟨hf _ _ hg.1, hg.2⟩)

theorem alike_expecting (h : L.Alike V p q) (label : String) :
    L.Alike V (Parser.expecting p label) (Parser.expecting q label) :=
  alike_mapError h fun _ _ he => L.relabel label he

/-- Reports change nothing in a reply. -/
theorem alike_traced (h : L.Alike V p q) (name : String) :
    L.Alike V (Parser.traced p name) (Parser.traced q name) := by
  intro c c' hc
  refine (InStep.report _ _).bind fun _ _ _ => ?_
  refine (h hc).bind ?_
  intro _ _ hr
  cases hr with
  | ok hv hd => exact (InStep.report _ _).bind fun _ _ _ => .pure (.ok hv hd)
  | fail hf => exact (InStep.report _ _).bind fun _ _ _ => .pure (.fail hf)

/-- Neither do the reports of what is built. -/
theorem alike_making (h : L.Alike V p q) (renewed : Supplier → Bool) (made : List Event) :
    L.Alike V (Parser.making p renewed made) (Parser.making q renewed made) := by
  intro c c' hc
  refine (InStep.renew renewed).bind fun _ _ _ => ?_
  refine InStep.bind (R := fun _ _ => True) ?_ fun _ _ _ => h hc
  induction made with
  | nil => exact .pure trivial
  | cons e made ih => exact (InStep.report e e).bind fun _ _ _ => ih

theorem alike_deferred (h : L.Alike V p q) (supplier : Supplier) (made : List Event) :
    L.Alike V (Parser.deferred p supplier made) (Parser.deferred q supplier made) :=
  fun _ _ hc => (InStep.build supplier made).bind fun _ _ _ => h hc

end Descent.Likeness
