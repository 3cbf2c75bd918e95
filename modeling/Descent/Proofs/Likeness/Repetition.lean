import Descent.Parser.Lexeme
import Descent.Parser.Separated
import Descent.Proofs.Likeness.Alternatives

/-! Repetitions are alike when what they repeat is, by induction on their bound: both go on, or
both stop, after every item. The parsers of text repeat the reading of one character. -/
namespace Descent.Likeness

variable {σ σ' C C' τ α β γ δ : Type} [Cursor C τ] [Cursor C' τ] [Advance (Run σ) C]
  [Advance (Run σ') C'] [DecidableEq τ] {L : Likeness σ σ' C C' τ} {V : α → β → Prop}
  {W : γ → δ → Prop} {p : Parser (Run σ) C τ α} {q : Parser (Run σ') C' τ β}
  {s : Parser (Run σ) C τ γ} {s' : Parser (Run σ') C' τ δ}

/-- One more value in front of what the rest of a repetition gave. -/
theorem inStep_cons {x : Run σ (Reply C τ (List α))} {y : Run σ' (Reply C' τ (List β))} {v : α}
    {w : β} (hv : V v w) (h : InStep L.source (L.Replies (List.Forall₂ V)) x y) :
    InStep L.source (L.Replies (List.Forall₂ V)) (do return (← x).map (v :: ·))
      (do return (← y).map (w :: ·)) := by
  refine h.bind ?_
  intro _ _ hr
  cases hr with
  | ok hvs hd => exact .pure (.ok (.cons hv hvs) hd)
  | fail hf => exact .pure (.fail hf)

theorem alike_repeated (strict : Bool) (h : L.Alike V p q) (bound : Nat) :
    L.Alike (List.Forall₂ V) (Parser.repeated strict p bound)
      (Parser.repeated strict q bound) := by
  induction bound with
  | zero => exact fun _ _ _ => .spent
  | succ bound ih =>
    intro c c' hc
    refine (h hc).bind ?_
    intro _ _ hr
    cases hr with
    | ok hv hd =>
      refine .ite (by rw [same_eq hd hc]) (fun _ => ?_) fun _ => ?_
      · exact .pure (.fail ⟨L.message _ hc, hc⟩)
      · exact inStep_cons hv (ih hd)
    | fail hf => exact inStep_commit hf hc (.pure (.ok List.Forall₂.nil hc))

theorem alike_many1 (h : L.Alike V p q) (bound : Nat) :
    L.Alike (List.Forall₂ V) (Parser.many1 bound p) (Parser.many1 bound q) :=
  alike_bind h fun _ _ hv => alike_map (alike_repeated false h bound) fun _ _ hvs => .cons hv hvs

theorem alike_sepRest (h : L.Alike V p q) (hs : L.Alike W s s') (bound : Nat) :
    L.Alike (List.Forall₂ V) (Parser.sepRest p s bound) (Parser.sepRest q s' bound) := by
  induction bound with
  | zero => exact fun _ _ _ => .spent
  | succ bound ih =>
    intro c c' hc
    refine (hs hc).bind ?_
    intro _ _ hr
    cases hr with
    | ok _ hd =>
      refine (h hd).bind ?_
      intro _ _ hr
      cases hr with
      | ok hv he => exact inStep_cons hv (ih he)
      | fail hf => exact inStep_commit hf hc (.pure (.ok List.Forall₂.nil hc))
    | fail hf => exact inStep_commit hf hc (.pure (.ok List.Forall₂.nil hc))

theorem alike_sepBy (atLeastOne : Bool) (h : L.Alike V p q) (hs : L.Alike W s s') (bound : Nat) :
    L.Alike (List.Forall₂ V) (Parser.sepBy atLeastOne p s bound)
      (Parser.sepBy atLeastOne q s' bound) := by
  intro c c' hc
  refine (h hc).bind ?_
  intro _ _ hr
  cases hr with
  | ok hv hd => exact inStep_cons hv (alike_sepRest h hs bound hd)
  | fail hf =>
    refine .ite (by rw [consumedSince_eq hf hc]) (fun _ => .pure (.fail hf)) fun _ => ?_
    exact .pure (.ok .nil hc)

theorem alike_endBy (atLeastOne : Bool) (h : L.Alike V p q) (hs : L.Alike W s s') (bound : Nat) :
    L.Alike (List.Forall₂ V) (Parser.endBy atLeastOne p s bound)
      (Parser.endBy atLeastOne q s' bound) := by
  induction bound generalizing atLeastOne with
  | zero => exact fun _ _ _ => .spent
  | succ bound ih =>
    intro c c' hc
    refine (h hc).bind ?_
    intro _ _ hr
    cases hr with
    | ok hv hd =>
      refine (hs hd).bind ?_
      intro _ _ hr
      cases hr with
      | ok _ he => exact inStep_cons hv (ih false he)
      | fail hf => exact .pure (.fail hf)
    | fail hf =>
      refine .ite (by rw [consumedSince_eq hf hc]) (fun _ => .pure (.fail hf)) fun _ => ?_
      exact .pure (.ok .nil hc)

theorem alike_sepEndBy (atLeastOne : Bool) (h : L.Alike V p q) (hs : L.Alike W s s')
    (bound : Nat) :
    L.Alike (List.Forall₂ V) (Parser.sepEndBy atLeastOne p s bound)
      (Parser.sepEndBy atLeastOne q s' bound) := by
  induction bound generalizing atLeastOne with
  | zero => exact fun _ _ _ => .spent
  | succ bound ih =>
    intro c c' hc
    refine (h hc).bind ?_
    intro _ _ hr
    cases hr with
    | ok hv hd =>
      refine (hs hd).bind ?_
      intro _ _ hr
      cases hr with
      | ok _ he => exact inStep_cons hv (ih false he)
      | fail hf => exact inStep_commit hf hd (.pure (.ok (.cons hv .nil) hd))
    | fail hf =>
      refine .ite (by rw [consumedSince_eq hf hc]) (fun _ => .pure (.fail hf)) fun _ => ?_
      exact .pure (.ok .nil hc)

section Text

variable [Token τ]

theorem alike_charOf (k : CharClass) : L.Alike Eq (Parser.charOf k) (Parser.charOf k) :=
  alike_accept _ fun t => by
    cases (Token.char? t).filter k.test with
    | none => exact .none
    | some ch => exact .some rfl

/-- A literal that is cut short names no token, so its error is at home at the start. -/
theorem literalMismatch_failures {c : C} {c' : C'} (hc : L.cursor c c') (expected : String)
    (seen : List Char) (found : Option τ) :
    L.Failures (Parser.literalMismatch c expected seen found)
      (Parser.literalMismatch c' expected seen found) := by
  refine ⟨L.found _ hc fun t ht => ?_, hc⟩
  cases found with
  | none => cases ht
  | some u =>
    dsimp only at ht
    cases hu : Token.char? u <;> rw [hu] at ht <;> cases ht

theorem alike_literalRest {start : C} {start' : C'} (hstart : L.cursor start start')
    (expected : String) (seen rest : List Char) :
    L.Alike Eq (Parser.literalRest start expected seen rest)
      (Parser.literalRest start' expected seen rest) := by
  induction rest generalizing seen with
  | nil => exact fun _ _ hc => .pure (.ok rfl hc)
  | cons e rest ih =>
    intro c c' hc
    unfold Parser.literalRest
    rw [L.current hc]
    cases ht : Cursor.current c' with
    | none => exact .pure (.fail (literalMismatch_failures hstart ..))
    | some t =>
      refine .ite Iff.rfl (fun _ => ?_) fun _ => ?_
      · exact (L.advance hc (by rw [ht]; rfl)).bind fun _ _ hd => ih _ hd
      · exact .pure (.fail (literalMismatch_failures hstart ..))

theorem alike_literal (text : String) :
    L.Alike Eq (Parser.literal text) (Parser.literal text) :=
  fun _ _ hc => alike_literalRest hc text [] text.toList hc

theorem alike_digits (bound : Nat) :
    L.Alike (List.Forall₂ Eq) (Parser.many1 bound Parser.digit)
      (Parser.many1 bound Parser.digit) :=
  alike_many1 (alike_charOf .digit) bound

theorem alike_natural (bound : Nat) :
    L.Alike Eq (Parser.natural bound) (Parser.natural bound) := by
  intro c c' hc
  refine (alike_digits bound hc).bind ?_
  intro _ _ hr
  cases hr with
  | ok hv hd =>
    rw [List.forall₂_eq_eq_eq] at hv
    cases hv
    refine .ite Iff.rfl (fun _ => .pure (.ok rfl hd)) fun _ => ?_
    exact .pure (.fail ⟨L.message _ hc, hd⟩)
  | fail hf => exact .pure (.fail hf)

theorem alike_integer (bound : Nat) :
    L.Alike Eq (Parser.integer bound) (Parser.integer bound) := by
  intro c c' hc
  refine (alike_both (alike_optional (alike_charOf .sign)) (alike_digits bound) hc).bind ?_
  intro _ _ hr
  cases hr with
  | @ok v w _ _ hv hd =>
    obtain ⟨sign, digits⟩ := v
    obtain ⟨sign', digits'⟩ := w
    obtain ⟨hs, hds⟩ := hv
    have hsign : sign = sign' := by cases hs <;> simp_all
    rw [List.forall₂_eq_eq_eq] at hds
    cases hsign
    cases hds
    refine .ite Iff.rfl (fun _ => .pure (.ok rfl hd)) fun _ => ?_
    exact .pure (.fail ⟨L.message _ hc, hd⟩)
  | fail hf => exact .pure (.fail hf)

theorem alike_identifier (bound : Nat) :
    L.Alike Eq (Parser.identifier bound) (Parser.identifier bound) := by
  refine alike_bind (alike_expecting (alike_charOf .letter) _) fun first _ hfirst => ?_
  refine alike_map (alike_repeated false (alike_charOf _) bound) fun more more' hmore => ?_
  rw [List.forall₂_eq_eq_eq] at hmore
  rw [hfirst, hmore]

end Text

end Descent.Likeness
