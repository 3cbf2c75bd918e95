import Descent.Proofs.Likeness.Layout
import Descent.Proofs.Likeness.Permutation
import Descent.Proofs.Likeness.Shape

/-! Grammars whose runs are alike. The parsers of two grammars are alike when the grammars have one
shape and what stands in them belongs together. This is one induction over grammars and one over
the depth of rules; what all runs keep, and how runs over two kinds of input compare, are
instances of it. -/
namespace Descent

variable {σ σ' C C' τ : Type} [Cursor C τ] [Cursor C' τ] [Advance (Run σ) C]
  [Advance (Run σ') C'] [DecidableEq τ]

namespace Grammar

variable [Token τ] (bound : Nat)

/-- `E` holds wherever a block or a run of items that needs an item comes to the end of the input
without one, and yet an item can be read there. -/
def EmptyEnds (rules : String → Parser (Run σ) C τ Value) (E : Relation → Level → C → Prop) :
    Grammar τ → Prop
  | block atLeastOne blanks head item =>
    atLeastOne = true → ∀ first line,
      Parser.EmptyBlock (blanks.parser bound rules) (head.parser bound rules)
        (item.parser bound rules) first line → E .gt (Cursor.level first) line
  | itemsAt atLeastOne reference relation blanks item =>
    atLeastOne = true → ∀ line,
      Parser.EmptyItems (blanks.parser bound rules) (item.parser bound rules) line →
        E relation reference line
  | _ => True

theorem emptyEnds_of_forall {rules : String → Parser (Run σ) C τ Value}
    {E : Relation → Level → C → Prop} (h : ∀ relation reference line, E relation reference line)
    (g : Grammar τ) : g.EmptyEnds bound rules E := by
  cases g with
  | block => exact fun _ _ _ _ => h _ _ _
  | itemsAt => exact fun _ _ _ => h _ _ _
  | _ => trivial

end Grammar

namespace Likeness

variable (L : Likeness σ σ' C C' τ) (bound : Nat)

theorem forall₂_ofFn {α β : Type} {R : α → β → Prop} {n : Nat} {f : Fin n → α} {g : Fin n → β}
    (h : ∀ i, R (f i) (g i)) : List.Forall₂ R (List.ofFn f) (List.ofFn g) := by
  refine List.forall₂_iff_get.2 ⟨by simp, fun i hi hi' => ?_⟩
  simpa using h _

variable {L} in
theorem alike_value {α : Type} {p : Parser (Run σ) C τ α} {q : Parser (Run σ') C' τ α}
    (h : L.Alike Eq p q) {f : α → Value} (hf : ∀ v, Value.Alike L.place (f v) (f v)) :
    L.Alike (Value.Alike L.place) (Parser.map p f) (Parser.map q f) :=
  alike_map h fun v _ hv => hv ▸ hf v

variable [Token τ]

/-- What a likeness asks of each grammar in a grammar: errors that are raised belong to
themselves, changes of errors keep errors together, and what is said of the end of the input where
an item is missing is excused. -/
def Admits (rules : String → Parser (Run σ') C' τ Value) : Grammar τ → Prop
  | .raise e => L.error e e
  | .mapError _ f => ∀ e e', L.error e e' → L.error (f e) (f e')
  | g => g.EmptyEnds bound rules L.excused

variable {L bound} in
theorem admits_of_plain {rules : String → Parser (Run σ') C' τ Value} {g : Grammar τ}
    (hg : g.Plain) (he : g.EmptyEnds bound rules L.excused) : L.Admits bound rules g := by
  cases g with
  | raise e => exact hg.elim
  | mapError g f =>
    obtain ⟨label, rfl⟩ := hg
    exact fun e e' h => L.relabel label h
  | _ => exact he

/-- A likeness that excuses all that is said of the end of the input asks no more of grammars than
that they make no errors of their own. -/
theorem every_admits_of_plain (rules : String → Parser (Run σ') C' τ Value)
    (hx : ∀ relation reference line, L.excused relation reference line) {g : Grammar τ}
    (hg : g.Every Grammar.Plain) : g.Every (L.Admits bound rules) :=
  hg.mono fun g h => admits_of_plain h (Grammar.emptyEnds_of_forall bound hx g)

variable {L bound} {rules : String → Parser (Run σ) C τ Value}
  {rules' : String → Parser (Run σ') C' τ Value}

/-- Grammars of one shape have alike parsers. -/
theorem alike_grammar (hr : ∀ name, L.Alike (Value.Alike L.place) (rules name) (rules' name))
    {g g' : Grammar τ} (h : g.Alike L.place g') (ha : g'.Every (L.Admits bound rules')) :
    L.Alike (Value.Alike L.place) (g.parser bound rules) (g'.parser bound rules') := by
  induction h with
  | pure v => exact alike_pure rfl
  | fail text => exact alike_fail text
  | raise e => exact alike_raise ha
  | accept label hp =>
    refine alike_accept label fun t => ?_
    rw [hp t]
    exact Value.option_alike _
  | endOfInput => exact alike_value alike_endOfInput fun _ => rfl
  | literal text => exact alike_value (alike_literal text) fun _ => rfl
  | natural => exact alike_value (alike_natural bound) fun _ => rfl
  | integer => exact alike_value (alike_integer bound) fun _ => rfl
  | identifier => exact alike_value (alike_identifier bound) fun _ => rfl
  | position => exact alike_map alike_position fun _ _ hp => congrArg Value.position hp
  | level => exact alike_value alike_level fun _ => rfl
  | spanned _ ih =>
    refine alike_map (alike_spanned (ih ha.2)) fun v w hv => ?_
    rw [Value.Alike, Value.mapPosition, ← hv.1, ← hv.2]
  | bind _ _ ihg ihk =>
    refine alike_bind (ihg ha.2.1) fun v w hv => ?_
    rw [hv]
    exact ihk w (ha.2.2 w)
  | orElse _ _ ihg ihh => exact alike_orElse (ihg ha.2.1) (ihh ha.2.2)
  | choice _ ih => exact alike_choice (forall₂_ofFn fun i => ih i (ha.2 i))
  | optional _ ih =>
    exact alike_map (alike_optional (ih ha.2)) fun _ _ ho => Value.ofOption_alike ho
  | attempt _ ih => exact alike_attempt (ih ha.2)
  | lookAhead _ ih => exact alike_lookAhead (ih ha.2)
  | notFollowedBy _ ih => exact alike_value (alike_notFollowedBy (ih ha.2)) fun _ => rfl
  | ensure _ ht hs ih =>
    exact alike_ensure (ih ha.2) (fun _ w hv => hv ▸ ht w) fun _ w hv => hv ▸ hs w
  | repeated strict _ ih =>
    exact alike_map (alike_repeated strict (ih ha.2) bound) fun _ _ hvs => Value.list_alike hvs
  | sepBy atLeastOne _ _ ihg ihs =>
    exact alike_map (alike_sepBy atLeastOne (ihg ha.2.1) (ihs ha.2.2) bound) fun _ _ hvs =>
      Value.list_alike hvs
  | endBy atLeastOne _ _ ihg ihs =>
    exact alike_map (alike_endBy atLeastOne (ihg ha.2.1) (ihs ha.2.2) bound) fun _ _ hvs =>
      Value.list_alike hvs
  | sepEndBy atLeastOne _ _ ihg ihs =>
    exact alike_map (alike_sepEndBy atLeastOne (ihg ha.2.1) (ihs ha.2.2) bound) fun _ _ hvs =>
      Value.list_alike hvs
  | mapError f _ ih => exact alike_mapError (ih ha.2) ha.1
  | traced name _ ih => exact alike_traced (ih ha.2) name
  | rule name => exact hr name
  | deferred supplier _ ih => exact alike_deferred (ih ha.2) supplier _
  | making renewed slots _ ih => exact alike_making (ih ha.2) renewed _
  | guardLevel relation reference _ ih =>
    exact alike_value (alike_guardLevel (ih ha.2) relation reference) fun _ => rfl
  | block atLeastOne _ _ _ ihb ihh ihg =>
    obtain ⟨hx, hb, hh, hg⟩ := ha
    refine alike_map (alike_block atLeastOne bound (ihb hb) (ihh hh) (ihg hg) hx) ?_
    rintro ⟨v, vs⟩ ⟨w, ws⟩ ⟨hv, hvs⟩
    exact congrArg₂ Value.pair hv (Value.list_alike hvs)
  | itemsAt atLeastOne reference relation _ _ ihb ihg =>
    obtain ⟨hx, hb, hg⟩ := ha
    exact alike_map (alike_itemsAt atLeastOne reference relation bound (ihb hb) (ihg hg) hx)
      fun _ _ hvs => Value.list_alike hvs
  | optionalAt reference relation _ ih =>
    exact alike_map (alike_optionalAt reference relation (ih ha.2)) fun _ _ ho =>
      Value.ofOption_alike ho
  | permutation seed _ hd hc ih =>
    refine alike_permutation (forall₂_ofFn fun i => ⟨ih i (ha.2 i), ?_, ?_⟩) rfl
    · dsimp only
      rw [hd i]
      exact Value.option_alike _
    · rintro _ _ _ _ rfl rfl
      exact hc i _ _

/-- Rules of one shape have alike parsers, whatever depth they are cut off at. -/
theorem alike_ruleParser {rules rules' : String → Grammar τ}
    (h : ∀ name, (rules name).Alike L.place (rules' name))
    (ha : ∀ depth name,
      (rules' name).Every (L.Admits bound (Grammar.ruleParser rules' bound depth)))
    (depth : Nat) (name : String) :
    L.Alike (Value.Alike L.place) (Grammar.ruleParser rules bound depth name)
      (Grammar.ruleParser rules' bound depth name) := by
  induction depth generalizing name with
  | zero => exact fun _ _ _ => .spent
  | succ depth ih => exact alike_grammar ih (h name) (ha depth name)

/-- Runs of grammars of one shape, with rules of one shape, are alike. -/
theorem alike_run {rules rules' : String → Grammar τ} {g g' : Grammar τ}
    (hr : ∀ name, (rules name).Alike L.place (rules' name)) (hg : g.Alike L.place g')
    (har : ∀ depth name,
      (rules' name).Every (L.Admits bound (Grammar.ruleParser rules' bound depth)))
    (hag : g'.Every (L.Admits bound (Grammar.ruleParser rules' bound bound))) :
    L.Alike (Value.Alike L.place) (Grammar.run rules bound g) (Grammar.run rules' bound g') :=
  alike_grammar (alike_ruleParser hr har bound) hg hag

end Likeness

end Descent
