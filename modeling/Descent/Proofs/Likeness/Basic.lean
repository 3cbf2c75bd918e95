import Descent.Parser.Basic
import Descent.Proofs.Likeness.InStep

/-! Likeness of two inputs, and what it is for parsers to be alike on them. A likeness says which
cursors, sources and errors belong together, and promises that this is kept by everything parsers
do with them: looking at a token, moving past it, comparing places, and making and joining errors.
Parsers are alike when they are in step from cursors that belong together. -/
namespace Descent

variable {σ σ' C C' τ α β γ δ : Type} [Cursor C τ] [Cursor C' τ] [Advance (Run σ) C]
  [Advance (Run σ') C'] [DecidableEq τ]

/-- What belongs together on two inputs. `place` gives the position on the left for one on the
right. The end of the input may be reported as misplaced, whatever its level, where `excused`. -/
structure Likeness (σ σ' C C' τ : Type) [Cursor C τ] [Cursor C' τ] [Advance (Run σ) C]
    [Advance (Run σ') C'] [DecidableEq τ] where
  source : σ → σ' → Prop
  cursor : C → C' → Prop
  error : ParseError τ → ParseError τ → Prop
  place : Position → Position
  excused : Relation → Level → C' → Prop
  current {c : C} {c' : C'} : cursor c c' → Cursor.current c = Cursor.current c'
  position {c : C} {c' : C'} : cursor c c' → Cursor.position c = place (Cursor.position c')
  level {c : C} {c' : C'} : cursor c c' → Cursor.level c = Cursor.level c'
  offset_lt {c d : C} {c' d' : C'} : cursor c c' → cursor d d' →
    (Cursor.offset c < Cursor.offset d ↔ Cursor.offset c' < Cursor.offset d')
  advance {c : C} {c' : C'} : cursor c c' → (Cursor.current c').isSome →
    InStep source cursor (advance c) (advance c')
  merge {e f e' f' : ParseError τ} : error e e' → error f f' → error (e.merge f) (e'.merge f')
  relabel {e e' : ParseError τ} (label : String) : error e e' →
    error (e.relabel label) (e'.relabel label)
  message {c : C} {c' : C'} (text : String) : cursor c c' →
    error (.message (Cursor.position c) text) (.message (Cursor.position c') text)
  found {c : C} {c' : C'} {u : Symbol τ} (x : Symbol τ) : cursor c c' →
    (∀ t, u = .token t → Cursor.current c' = some t) →
    error (.found (Cursor.position c) u x) (.found (Cursor.position c') u x)
  misplaced {c : C} {c' : C'} {relation : Relation} {reference : Level} : cursor c c' →
    relation.satisfies reference (Cursor.level c') = false ∨
      Cursor.isEnd c' ∧ excused relation reference c' →
    error (.indentation (Cursor.position c) relation reference (Cursor.level c))
      (.indentation (Cursor.position c') relation reference (Cursor.level c'))

namespace Likeness

variable (L : Likeness σ σ' C C' τ)

def Failures (f : Failure C τ) (f' : Failure C' τ) : Prop :=
  L.error f.error f'.error ∧ L.cursor f.cursor f'.cursor

inductive Replies (V : α → β → Prop) : Reply C τ α → Reply C' τ β → Prop where
  | ok {v : α} {w : β} {c : C} {c' : C'} (hv : V v w) (hc : L.cursor c c') :
    Replies V (.ok v c) (.ok w c')
  | fail {f : Failure C τ} {f' : Failure C' τ} (hf : L.Failures f f') :
    Replies V (.fail f) (.fail f')

def Alike (V : α → β → Prop) (p : Parser (Run σ) C τ α) (q : Parser (Run σ') C' τ β) : Prop :=
  ∀ ⦃c : C⦄ ⦃c' : C'⦄, L.cursor c c' → InStep L.source (L.Replies V) (p c) (q c')

section Decisions

variable {L} {c d : C} {c' d' : C'}

theorem isEnd_eq (h : L.cursor c c') : Cursor.isEnd c = Cursor.isEnd c' := by
  unfold Cursor.isEnd
  rw [L.current h]

/-- Both runs take the same side where they ask whether a cursor has moved. -/
theorem same_eq (hc : L.cursor c c') (hd : L.cursor d d') :
    Cursor.same c d = Cursor.same c' d' := by
  have hcd := L.offset_lt hc hd
  have hdc := L.offset_lt hd hc
  unfold Cursor.same
  rw [Bool.eq_iff_iff, beq_iff_eq, beq_iff_eq]
  omega

/-- Both runs commit to a failure or neither does. -/
theorem consumedSince_eq {f : Failure C τ} {f' : Failure C' τ} (hf : L.Failures f f')
    (hc : L.cursor c c') : f.consumedSince c = f'.consumedSince c' := by
  unfold Failure.consumedSince
  rw [same_eq hf.2 hc]

theorem merge_failures {f g : Failure C τ} {f' g' : Failure C' τ} (hf : L.Failures f f')
    (hg : L.Failures g g') : L.Failures (f.merge g) (f'.merge g') := by
  refine ⟨L.merge hf.1 hg.1, ?_⟩
  unfold Failure.merge
  by_cases h : Cursor.offset f'.cursor < Cursor.offset g'.cursor
  · rw [if_pos h, if_pos ((L.offset_lt hf.2 hg.2).2 h)]
    exact hg.2
  · rw [if_neg h, if_neg fun hlt => h ((L.offset_lt hf.2 hg.2).1 hlt)]
    exact hf.2

end Decisions

section Sequence

variable {L} {V : α → β → Prop} {W : γ → δ → Prop} {p : Parser (Run σ) C τ α}
  {q : Parser (Run σ') C' τ β}

/-- A failure that consumed input is final in both runs, and after any other both go on. -/
theorem inStep_commit {x : Run σ (Reply C τ α)} {y : Run σ' (Reply C' τ β)} {f : Failure C τ}
    {f' : Failure C' τ} {c : C} {c' : C'} (hf : L.Failures f f') (hc : L.cursor c c')
    (h : InStep L.source (L.Replies V) x y) :
    InStep L.source (L.Replies V) (if f.consumedSince c then return .fail f else x)
      (if f'.consumedSince c' then return .fail f' else y) := by
  refine .ite ?_ (fun _ => .pure (.fail hf)) fun _ => h
  rw [consumedSince_eq hf hc]

theorem alike_pure {v : α} {w : β} (h : V v w) : L.Alike V (Parser.pure v) (Parser.pure w) :=
  fun _ _ hc => .pure (.ok h hc)

/-- Parsers in sequence are alike when the first are, and the second for all values that belong
together. -/
theorem alike_bind {k : α → Parser (Run σ) C τ γ} {l : β → Parser (Run σ') C' τ δ}
    (h : L.Alike V p q) (hk : ∀ v w, V v w → L.Alike W (k v) (l w)) :
    L.Alike W (Parser.bind p k) (Parser.bind q l) := by
  intro c c' hc
  refine (h hc).bind ?_
  intro _ _ hr
  cases hr with
  | ok hv hd => exact hk _ _ hv hd
  | fail hf => exact .pure (.fail hf)

theorem alike_map {f : α → γ} {g : β → δ} (h : L.Alike V p q)
    (hf : ∀ v w, V v w → W (f v) (g w)) : L.Alike W (Parser.map p f) (Parser.map q g) :=
  alike_bind h fun v w hv => alike_pure (hf v w hv)

theorem alike_both {p' : Parser (Run σ) C τ γ} {q' : Parser (Run σ') C' τ δ}
    (h : L.Alike V p q) (h' : L.Alike W p' q') :
    L.Alike (fun x y => V x.1 y.1 ∧ W x.2 y.2) (Parser.both p p') (Parser.both q q') :=
  alike_bind h fun _ _ hv => alike_map h' fun _ _ hw => ⟨hv, hw⟩

theorem alike_keepRight {p' : Parser (Run σ) C τ γ} {q' : Parser (Run σ') C' τ δ}
    (h : L.Alike V p q) (h' : L.Alike W p' q') :
    L.Alike W (Parser.keepRight p p') (Parser.keepRight q q') :=
  alike_bind h fun _ _ _ => h'

end Sequence

section Primitives

variable {L} {V : α → β → Prop}

theorem alike_raise {e e' : ParseError τ} (h : L.error e e') :
    L.Alike V (Parser.raise e) (Parser.raise e') :=
  fun _ _ hc => .pure (.fail ⟨h, hc⟩)

theorem alike_fail (text : String) : L.Alike V (Parser.fail text) (Parser.fail text) :=
  fun _ _ hc => .pure (.fail ⟨L.message text hc, hc⟩)

theorem alike_position : L.Alike (fun p q => p = L.place q) Parser.position Parser.position :=
  fun _ _ hc => .pure (.ok (L.position hc) hc)

theorem alike_level : L.Alike Eq Parser.level Parser.level :=
  fun _ _ hc => .pure (.ok (L.level hc) hc)

theorem alike_spanned {p : Parser (Run σ) C τ α} {q : Parser (Run σ') C' τ β}
    (h : L.Alike V p q) :
    L.Alike (fun x y => V x.1 y.1 ∧ x.2 = ⟨L.place y.2.start, L.place y.2.stop⟩)
      (Parser.spanned p) (Parser.spanned q) := by
  refine alike_bind alike_position fun start start' hstart => ?_
  refine alike_bind h fun v w hv => ?_
  refine alike_map alike_position fun stop stop' hstop => ⟨hv, ?_⟩
  rw [hstart, hstop]

theorem alike_endOfInput : L.Alike Eq Parser.endOfInput Parser.endOfInput := by
  intro c c' hc
  unfold Parser.endOfInput
  rw [L.current hc]
  cases ht : Cursor.current c' with
  | none => exact .pure (.ok rfl hc)
  | some t => exact .pure (.fail ⟨L.found _ hc (by rintro u ⟨⟩; exact ht), hc⟩)

/-- Whether a token is read depends on nothing but the token. -/
theorem alike_accept {pick : τ → Option α} {pick' : τ → Option β} (label : String)
    (h : ∀ t, Option.Rel V (pick t) (pick' t)) :
    L.Alike V (Parser.accept pick label) (Parser.accept pick' label) := by
  intro c c' hc
  unfold Parser.accept
  rw [L.current hc]
  cases ht : Cursor.current c' with
  | none => exact .pure (.fail ⟨L.found _ hc (by rintro u ⟨⟩), hc⟩)
  | some t =>
    have hp := h t
    dsimp only
    generalize pick t = a at hp ⊢
    generalize pick' t = b at hp ⊢
    cases hp with
    | none => exact .pure (.fail ⟨L.found _ hc (by rintro u ⟨⟩; exact ht), hc⟩)
    | some hv =>
      refine (L.advance hc (by rw [ht]; rfl)).bind fun d d' hd => ?_
      exact .pure (.ok hv hd)

end Primitives

end Likeness

end Descent
