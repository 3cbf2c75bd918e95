import Descent.Layout.Block
import Descent.Layout.Items
import Descent.Proofs.Likeness.Repetition

/-! Parsers of layout are alike when their parts are: cursors that belong together stand at one
level. Where an item is required and the input is at its end, a block or a run of items complains
of an indentation that it has not looked at. That needs to be excused, but only where the item
could be read there. -/
namespace Descent

variable {σ σ' C C' τ α β γ δ ε ζ : Type} [Cursor C τ] [Cursor C' τ] [Advance (Run σ) C]
  [Advance (Run σ') C'] [DecidableEq τ]

def Parser.Leads (p : Parser (Run σ) C τ α) (c : C) (j : Journal σ) (d : C) (k : Journal σ) :
    Prop :=
  ∃ v, p c j = .ok (.ok v d, k)

/-- A block with its head at `first` comes to the end of the input at `line` without an item, and
yet an item can be read there. -/
def Parser.EmptyBlock (blanks : Parser (Run σ) C τ γ) (head : Parser (Run σ) C τ ε)
    (item : Parser (Run σ) C τ α) (first line : C) : Prop :=
  ∃ c next d h i j k l, blanks.Leads c h first i ∧ head.Leads first i next j ∧
    blanks.Leads next j line k ∧ Cursor.isEnd line ∧ item.Leads line k d l

def Parser.EmptyItems (blanks : Parser (Run σ) C τ γ) (item : Parser (Run σ) C τ α) (line : C) :
    Prop :=
  ∃ c d j k l, blanks.Leads c j line k ∧ Cursor.isEnd line ∧ item.Leads line k d l

namespace Likeness

variable {L : Likeness σ σ' C C' τ} {V : α → β → Prop} {W : γ → δ → Prop} {U : ε → ζ → Prop}
  {blanks : Parser (Run σ) C τ γ} {blanks' : Parser (Run σ') C' τ δ}
  {item : Parser (Run σ) C τ α} {item' : Parser (Run σ') C' τ β}
  {head : Parser (Run σ) C τ ε} {head' : Parser (Run σ') C' τ ζ}
  {j : Journal σ} {k : Journal σ'}

theorem alike_checkLevel (relation : Relation) (reference : Level) :
    L.Alike Eq (Parser.checkLevel relation reference) (Parser.checkLevel relation reference) := by
  intro c c' hc
  refine .ite (by rw [L.level hc]) (fun _ => .pure (.ok (L.level hc) hc)) fun h => ?_
  refine (InStep.report _ _).bind fun _ _ _ => ?_
  exact .pure (.fail ⟨L.misplaced hc (.inl (Bool.eq_false_iff.2 h)), hc⟩)

theorem alike_guardLevel (hb : L.Alike W blanks blanks') (relation : Relation)
    (reference : Level) : L.Alike Eq (Parser.guardLevel blanks relation reference)
      (Parser.guardLevel blanks' relation reference) :=
  alike_keepRight hb (alike_checkLevel relation reference)

theorem alike_optionalAt (reference : Level) (relation : Relation) (hi : L.Alike V item item') :
    L.Alike (Option.Rel V) (Parser.optionalAt reference relation item)
      (Parser.optionalAt reference relation item') := by
  intro c c' hc
  refine (hi hc).bind ?_
  intro _ _ hr
  cases hr with
  | ok hv hd =>
    refine (alike_checkLevel relation reference hc).bind ?_
    intro _ _ hr
    cases hr with
    | ok _ _ => exact .pure (.ok (.some hv) hd)
    | fail hf => exact .pure (.fail hf)
  | fail hf => exact inStep_commit hf hc (.pure (.ok .none hc))

/-- An indentation may be complained of where it is wrong, or where that is excused. -/
theorem indentationFailure_failures {c : C} {c' : C'} (hc : L.cursor c c') {relation : Relation}
    {reference : Level} (h : relation.satisfies reference (Cursor.level c') = false ∨
      Cursor.isEnd c' ∧ L.excused relation reference c') :
    L.Failures (Parser.indentationFailure c relation reference)
      (Parser.indentationFailure c' relation reference) :=
  ⟨L.misplaced hc h, hc⟩

theorem inStep_missingItem (hi : L.Alike V item item') {reference : Level} {line : C} {line' : C'}
    (hl : L.cursor line line') (hs : L.source j.source k.source)
    (hx : Cursor.isEnd line' → ∀ d m, item'.Leads line' k d m → L.excused .gt reference line')
    (h : Cursor.isEnd line' ∨ (Cursor.level line').column ≤ reference.column) :
    InStepFrom L.source L.Failures (Parser.missingItem item reference line)
      (Parser.missingItem item' reference line') j k := by
  refine .ite (by rw [isEnd_eq hl]) (fun he => ?_) fun he => ?_
  · refine (hi hl hs).bind ?_
    intro _ _ _ m hm hr hs'
    cases hr with
    | ok hv hd => exact .pure (indentationFailure_failures hl (.inr ⟨he, hx he _ m ⟨_, hm⟩⟩)) hs'
    | fail hf => exact .pure hf hs'
  · refine .pure (indentationFailure_failures hl (.inl ?_)) hs
    exact decide_eq_false (Nat.not_lt.2 (h.resolve_left he))

/-- The items of a block. Only the first of them can be missing. -/
theorem inStep_blockItems (hb : L.Alike W blanks blanks') (hi : L.Alike V item item')
    (reference : Level) (atLeastOne : Bool) (aligned : Option Level) (bound : Nat) {c : C} {c' : C'}
    (hc : L.cursor c c') (hs : L.source j.source k.source)
    (hx : atLeastOne = true → ∀ line l, blanks'.Leads c' k line l → Cursor.isEnd line →
      ∀ d m, item'.Leads line l d m → L.excused .gt reference line) :
    InStepFrom L.source (L.Replies (List.Forall₂ V))
      (Parser.blockItems blanks item reference atLeastOne aligned bound c)
      (Parser.blockItems blanks' item' reference atLeastOne aligned bound c') j k := by
  induction bound generalizing atLeastOne aligned c c' j k with
  | zero => exact .spent
  | succ bound ih =>
    refine (hb hc hs).bind ?_
    intro _ _ j l hline hr hs
    cases hr with
    | ok _ hl =>
      refine .ite (by rw [isEnd_eq hl, L.level hl]) (fun h => ?_) fun _ => ?_
      · refine .ite Iff.rfl (fun ha => ?_) fun _ => .pure (.ok .nil hc) hs
        have hmissing := inStep_missingItem hi hl hs (hx ha _ l ⟨_, hline⟩) (by simpa using h)
        exact hmissing.bind fun _ _ _ _ _ hf hs => .pure (.fail hf) hs
      · rw [L.level hl]
        refine .ite Iff.rfl (fun _ => ?_) fun hne => ?_
        · refine (hi hl hs).bind ?_
          intro _ _ _ _ _ hr hs
          cases hr with
          | ok hv hd => exact inStep_cons hv (fun _ _ hs => ih false _ hd hs (by simp)) hs
          | fail hf => exact .pure (.fail hf) hs
        · refine (InStep.report _ _ hs).bind fun _ _ _ _ _ _ hs => ?_
          refine .pure (.fail (indentationFailure_failures hl (.inl ?_))) hs
          exact beq_false_of_ne fun heq => hne (Level.mk.injEq .. ▸ heq)
    | fail hf => exact .pure (.fail hf) hs

/-- A block is alike when its parts are, if what it says at the end of the input is excused. -/
theorem alike_block (atLeastOne : Bool) (bound : Nat) (hb : L.Alike W blanks blanks')
    (hh : L.Alike U head head') (hi : L.Alike V item item')
    (hx : atLeastOne = true → ∀ first line, Parser.EmptyBlock blanks' head' item' first line →
      L.excused .gt (Cursor.level first) line) :
    L.Alike (fun x y => U x.1 y.1 ∧ List.Forall₂ V x.2 y.2)
      (Parser.block atLeastOne blanks head item bound)
      (Parser.block atLeastOne blanks' head' item' bound) := by
  intro c c' hc j k hs
  refine (hb hc hs).bind ?_
  intro _ _ _ l hl hr hs
  cases hr with
  | @ok _ _ first first' _ hfirst =>
    refine (alike_level hfirst hs).bind ?_
    rintro _ _ _ _ ⟨⟩ (⟨rfl, hd⟩ | ⟨hf⟩) hs
    refine (hh hd hs).bind ?_
    intro _ _ _ m hm hr hs
    cases hr with
    | ok hu hnext =>
      have hitems := inStep_blockItems hb hi (Cursor.level first') atLeastOne none bound hnext hs
        fun ha line n hline he d o hd =>
          hx ha first' line ⟨_, _, d, _, _, _, n, o, ⟨_, hl⟩, ⟨_, hm⟩, hline, he, hd⟩
      refine hitems.bind ?_
      intro _ _ _ _ _ hr hs
      cases hr with
      | ok hvs hend => exact .pure (.ok ⟨hu, hvs⟩ hend) hs
      | fail hf => exact .pure (.fail hf) hs
    | fail hf => exact .pure (.fail hf) hs
  | fail hf => exact .pure (.fail hf) hs

theorem endItems_replies (atLeastOne : Bool) {f : Failure C τ} {f' : Failure C' τ} {c : C}
    {c' : C'} (hf : atLeastOne = true → L.Failures f f') (hc : L.cursor c c') :
    L.Replies (List.Forall₂ V) (Parser.endItems atLeastOne f c)
      (Parser.endItems atLeastOne f' c') := by
  cases atLeastOne with
  | false => exact .ok .nil hc
  | true => exact .fail (hf rfl)

theorem inStep_itemsAt (reference : Level) (relation : Relation) (hb : L.Alike W blanks blanks')
    (hi : L.Alike V item item') (atLeastOne : Bool) (bound : Nat) {c : C} {c' : C'}
    (hc : L.cursor c c') (hs : L.source j.source k.source)
    (hx : atLeastOne = true → ∀ line l, blanks'.Leads c' k line l → Cursor.isEnd line →
      ∀ d m, item'.Leads line l d m → L.excused relation reference line) :
    InStepFrom L.source (L.Replies (List.Forall₂ V))
      (Parser.itemsAt reference relation blanks item atLeastOne bound c)
      (Parser.itemsAt reference relation blanks' item' atLeastOne bound c') j k := by
  induction bound generalizing atLeastOne c c' j k with
  | zero => exact .spent
  | succ bound ih =>
    refine (hb hc hs).bind ?_
    intro _ _ j l hline hr hs
    cases hr with
    | ok _ hl =>
      refine .ite (by rw [isEnd_eq hl]) (fun he => ?_) fun _ => ?_
      · refine (hi hl hs).bind ?_
        intro _ _ _ m hm hr hs
        cases hr with
        | ok _ _ =>
          refine .pure (endItems_replies atLeastOne (fun ha => ?_) hc) hs
          exact indentationFailure_failures hl
            (.inr ⟨he, hx ha _ l ⟨_, hline⟩ he _ m ⟨_, hm⟩⟩)
        | fail hf => exact .pure (endItems_replies atLeastOne (fun _ => hf) hc) hs
      · refine .ite (by rw [L.level hl]) (fun _ => ?_) fun h => ?_
        · refine (hi hl hs).bind ?_
          intro _ _ _ _ _ hr hs
          cases hr with
          | ok hv hd => exact inStep_cons hv (fun _ _ hs => ih false hd hs (by simp)) hs
          | fail hf =>
            exact inStep_commit hf hl (.pure (endItems_replies atLeastOne (fun _ => hf) hc)) hs
        · refine .pure (endItems_replies atLeastOne (fun _ => ?_) hc) hs
          exact indentationFailure_failures hl (.inl (Bool.eq_false_iff.2 h))
    | fail hf => exact .pure (.fail hf) hs

theorem alike_itemsAt (atLeastOne : Bool) (reference : Level) (relation : Relation) (bound : Nat)
    (hb : L.Alike W blanks blanks') (hi : L.Alike V item item')
    (hx : atLeastOne = true → ∀ line, Parser.EmptyItems blanks' item' line →
      L.excused relation reference line) :
    L.Alike (List.Forall₂ V) (Parser.itemsAt reference relation blanks item atLeastOne bound)
      (Parser.itemsAt reference relation blanks' item' atLeastOne bound) := by
  intro c c' hc j k hs
  refine inStep_itemsAt reference relation hb hi atLeastOne bound hc hs ?_
  intro ha line l hline he d m hd
  exact hx ha line ⟨_, d, _, l, m, hline, he, hd⟩

end Likeness

end Descent
