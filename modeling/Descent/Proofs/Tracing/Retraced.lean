import Descent.Proofs.Likeness.Grammar
import Descent.Proofs.Tracing.Parsers
import Descent.Proofs.Tracing.Wrappers

/-! Grammars that differ in their wrappers. Traced parsers may be renamed or erased, and deferred
parsers and rules replaced by what they stand for, anywhere in a grammar. What is left mirrors the
grammar as soon as wrappers do. This is one induction over the depth of rules and one over
grammars. -/
namespace Descent.Grammar

variable {τ : Type}

/-- How wrappers may differ. A grammar that is traced by a name admits another name, or none where
its wrapper is erased, and a deferred parser stays if its supplier is `kept`. -/
structure Wrapping (τ : Type) where
  admits : Grammar τ → String → Option String → Prop
  kept : Supplier → Prop

/-- The second grammar is the first with other wrappers, as `W` admits. A deferred parser that does
not stay is replaced by what it builds, and a rule may be replaced by what it stands for, with other
wrappers too. A function that only calls a parser is that parser, so there are no other wrappers to
erase. -/
inductive Retraced (rules : String → Grammar τ) (W : Wrapping τ) :
    Grammar τ → Grammar τ → Prop where
  | pure (v : Value) : Retraced rules W (pure v) (pure v)
  | fail (text : String) : Retraced rules W (fail text) (fail text)
  | raise (e : ParseError τ) : Retraced rules W (raise e) (raise e)
  | accept (pick : τ → Option Value) (label : String) :
      Retraced rules W (accept pick label) (accept pick label)
  | endOfInput : Retraced rules W endOfInput endOfInput
  | literal (text : String) : Retraced rules W (literal text) (literal text)
  | natural : Retraced rules W natural natural
  | integer : Retraced rules W integer integer
  | identifier : Retraced rules W identifier identifier
  | position : Retraced rules W position position
  | level : Retraced rules W level level
  | spanned {g g' : Grammar τ} (hg : Retraced rules W g g') :
      Retraced rules W (spanned g) (spanned g')
  | bind {g g' : Grammar τ} {k k' : Value → Grammar τ} (hg : Retraced rules W g g')
      (hk : ∀ v, Retraced rules W (k v) (k' v)) : Retraced rules W (bind g k) (bind g' k')
  | orElse {g g' h h' : Grammar τ} (hg : Retraced rules W g g') (hh : Retraced rules W h h') :
      Retraced rules W (orElse g h) (orElse g' h')
  | choice {n : Nat} {gs gs' : Fin n → Grammar τ} (h : ∀ i, Retraced rules W (gs i) (gs' i)) :
      Retraced rules W (choice n gs) (choice n gs')
  | optional {g g' : Grammar τ} (hg : Retraced rules W g g') :
      Retraced rules W (optional g) (optional g')
  | attempt {g g' : Grammar τ} (hg : Retraced rules W g g') :
      Retraced rules W (attempt g) (attempt g')
  | lookAhead {g g' : Grammar τ} (hg : Retraced rules W g g') :
      Retraced rules W (lookAhead g) (lookAhead g')
  | notFollowedBy {g g' : Grammar τ} (hg : Retraced rules W g g') :
      Retraced rules W (notFollowedBy g) (notFollowedBy g')
  | ensure (test : Value → Bool) (reason : Value → String) {g g' : Grammar τ}
      (hg : Retraced rules W g g') :
      Retraced rules W (ensure g test reason) (ensure g' test reason)
  | repeated (strict : Bool) {g g' : Grammar τ} (hg : Retraced rules W g g') :
      Retraced rules W (repeated strict g) (repeated strict g')
  | sepBy (atLeastOne : Bool) {g g' s s' : Grammar τ} (hg : Retraced rules W g g')
      (hs : Retraced rules W s s') :
      Retraced rules W (sepBy atLeastOne g s) (sepBy atLeastOne g' s')
  | endBy (atLeastOne : Bool) {g g' s s' : Grammar τ} (hg : Retraced rules W g g')
      (hs : Retraced rules W s s') :
      Retraced rules W (endBy atLeastOne g s) (endBy atLeastOne g' s')
  | sepEndBy (atLeastOne : Bool) {g g' s s' : Grammar τ} (hg : Retraced rules W g g')
      (hs : Retraced rules W s s') :
      Retraced rules W (sepEndBy atLeastOne g s) (sepEndBy atLeastOne g' s')
  | mapError (f : ParseError τ → ParseError τ) {g g' : Grammar τ} (hg : Retraced rules W g g') :
      Retraced rules W (mapError g f) (mapError g' f)
  | renamed {g g' : Grammar τ} {name name' : String} (hw : W.admits g name (some name'))
      (hg : Retraced rules W g g') : Retraced rules W (traced g name) (traced g' name')
  | erased {g g' : Grammar τ} {name : String} (hw : W.admits g name none)
      (hg : Retraced rules W g g') : Retraced rules W (traced g name) g'
  | rule (name : String) : Retraced rules W (rule name) (rule name)
  | unfolded {name : String} {g' : Grammar τ} (hg : Retraced rules W (rules name) g') :
      Retraced rules W (rule name) g'
  | deferred {s : Supplier} {g g' : Grammar τ} (hs : W.kept s) (hg : Retraced rules W g g') :
      Retraced rules W (deferred g s) (deferred g' s)
  | replaced {s : Supplier} {g g' : Grammar τ} (hs : ¬W.kept s) (hg : Retraced rules W g g') :
      Retraced rules W (deferred g s) g'
  | making (renewed : Supplier → Bool) (slots : List Nat) {g g' : Grammar τ}
      (hg : Retraced rules W g g') :
      Retraced rules W (making g renewed slots) (making g' renewed slots)
  | guardLevel (relation : Relation) (reference : Level) {b b' : Grammar τ}
      (hb : Retraced rules W b b') :
      Retraced rules W (guardLevel b relation reference) (guardLevel b' relation reference)
  | block (atLeastOne : Bool) {b b' h h' g g' : Grammar τ} (hb : Retraced rules W b b')
      (hh : Retraced rules W h h') (hg : Retraced rules W g g') :
      Retraced rules W (block atLeastOne b h g) (block atLeastOne b' h' g')
  | itemsAt (atLeastOne : Bool) (reference : Level) (relation : Relation) {b b' g g' : Grammar τ}
      (hb : Retraced rules W b b') (hg : Retraced rules W g g') :
      Retraced rules W (itemsAt atLeastOne reference relation b g)
        (itemsAt atLeastOne reference relation b' g')
  | optionalAt (reference : Level) (relation : Relation) {g g' : Grammar τ}
      (hg : Retraced rules W g g') :
      Retraced rules W (optionalAt reference relation g) (optionalAt reference relation g')
  | permutation (seed : Value) {n : Nat} {slots slots' : Fin n → Grammar τ}
      (default? : Fin n → Option Value) (combine : Fin n → Value → Value → Value)
      (hs : ∀ i, Retraced rules W (slots i) (slots' i)) :
      Retraced rules W (permutation seed n slots default? combine)
        (permutation seed n slots' default? combine)

variable {σ C : Type} [Cursor C τ] [Advance (Run σ) C] [DecidableEq τ] [Token τ]

/-- Logs fit wrappers that differ as `W` admits. Logs of a traced parser that belong together still
do when they are enclosed in the reports of its wrapper and of what it admits, and what is reported
while a parser is built that is replaced belongs to nothing. -/
structure Fits (W : Wrapping τ) (L : LogRelation) (bound : Nat)
    (rules : String → Parser (Run σ) C τ Value) : Prop where
  enclose {g : Grammar τ} {name : String} {name' : Option String} : W.admits g name name' →
    ∀ c r log log', (g.parser bound rules).Ran c r log → L.rel log log' →
      L.rel (r.enclose c log (some name)) (r.enclose c log' name')
  kept {s : Supplier} : L.kept s ↔ W.kept s
  replaced {s : Supplier} : ¬W.kept s →
    L.rel (.parserBuilt s :: permutationsBuilt s.permutations) []

theorem plain_permutationsBuilt (slots : List Nat) : ∀ e ∈ permutationsBuilt slots, e.Plain :=
  List.forall_mem_map.2 fun _ _ => ⟨rfl, rfl⟩

variable [Orderly σ C] {W : Wrapping τ} {L : LogRelation} {bound : Nat}
  {rules rules' : String → Grammar τ}

/-- A grammar with other wrappers mirrors the grammar if its rules mirror those of the grammar, and
so does all that rules may be replaced by. -/
theorem Retraced.mirrors_of_rules {parsers parsers' : String → Parser (Run σ) C τ Value}
    (hW : Fits W L bound parsers)
    (hrule : ∀ name, Parser.Mirrors L (parsers name) (parsers' name))
    (hunfolded : ∀ name g', Retraced rules W (rules name) g' →
      Parser.Mirrors L (parsers name) (g'.parser bound parsers'))
    {g g' : Grammar τ} (h : Retraced rules W g g') :
    Parser.Mirrors L (g.parser bound parsers) (g'.parser bound parsers') := by
  induction h with
  | pure v => exact Parser.mirrors_pure v
  | fail text => exact Parser.mirrors_fail text
  | raise e => exact Parser.mirrors_raise e
  | accept pick label => exact Parser.mirrors_accept pick label
  | endOfInput => exact Parser.mirrors_map Parser.mirrors_endOfInput _
  | literal text => exact Parser.mirrors_map (Parser.mirrors_literal text) _
  | natural => exact Parser.mirrors_map (Parser.mirrors_natural bound) _
  | integer => exact Parser.mirrors_map (Parser.mirrors_integer bound) _
  | identifier => exact Parser.mirrors_map (Parser.mirrors_identifier bound) _
  | position => exact Parser.mirrors_map Parser.mirrors_position _
  | level => exact Parser.mirrors_map Parser.mirrors_level _
  | spanned _ ih => exact Parser.mirrors_map (Parser.mirrors_spanned ih) _
  | bind _ _ ihg ihk => exact Parser.mirrors_bind ihg ihk
  | orElse _ _ ihg ihh => exact Parser.mirrors_orElse ihg ihh
  | choice _ ih => exact Parser.mirrors_choice (Likeness.forall₂_ofFn ih)
  | optional _ ih => exact Parser.mirrors_map (Parser.mirrors_optional ih) _
  | attempt _ ih => exact Parser.mirrors_attempt ih
  | lookAhead _ ih => exact Parser.mirrors_lookAhead ih
  | notFollowedBy _ ih => exact Parser.mirrors_map (Parser.mirrors_notFollowedBy ih) _
  | ensure test reason _ ih => exact Parser.mirrors_ensure ih test reason
  | repeated strict _ ih => exact Parser.mirrors_map (Parser.mirrors_repeated strict ih bound) _
  | sepBy atLeastOne _ _ ihg ihs =>
    exact Parser.mirrors_map (Parser.mirrors_sepBy atLeastOne ihg ihs bound) _
  | endBy atLeastOne _ _ ihg ihs =>
    exact Parser.mirrors_map (Parser.mirrors_endBy atLeastOne ihg ihs bound) _
  | sepEndBy atLeastOne _ _ ihg ihs =>
    exact Parser.mirrors_map (Parser.mirrors_sepEndBy atLeastOne ihg ihs bound) _
  | mapError f _ ih => exact Parser.mirrors_mapError ih f
  | renamed hw _ ih => exact Parser.mirrors_tracedAs ih (hW.enclose hw)
  | erased hw _ ih => exact Parser.mirrors_tracedAs ih (hW.enclose hw)
  | rule name => exact hrule name
  | unfolded hg ih => exact hunfolded _ _ hg
  | deferred hs _ ih =>
    exact Parser.mirrors_deferred (hW.kept.2 hs) (plain_permutationsBuilt _) ih
  | replaced hs _ ih => exact Parser.mirrors_replaced (mt hW.kept.1 hs) (hW.replaced hs) ih
  | making renewed slots _ ih =>
    exact Parser.mirrors_making renewed (plain_permutationsBuilt slots) ih
  | guardLevel relation reference _ ih =>
    exact Parser.mirrors_map (Parser.mirrors_guardLevel ih relation reference) _
  | block atLeastOne _ _ _ ihb ihh ihg =>
    exact Parser.mirrors_map (Parser.mirrors_block atLeastOne ihb ihh ihg bound) _
  | itemsAt atLeastOne reference relation _ _ ihb ihg =>
    exact Parser.mirrors_map
      (Parser.mirrors_itemsAt reference relation ihb ihg atLeastOne bound) _
  | optionalAt reference relation _ ih =>
    exact Parser.mirrors_map (Parser.mirrors_optionalAt reference relation ih) _
  | permutation seed default? combine _ ih =>
    refine Permutation.mirrors_ofSlots (Likeness.forall₂_ofFn fun i => ?_) seed
    exact ⟨ih i, rfl, rfl⟩

/-- A run of a grammar with other wrappers mirrors a run of the grammar. It may go deeper into
rules, since those that are replaced take no depth. -/
theorem Retraced.mirrors
    (hW : ∀ depth, Fits W L bound
      (ruleParser rules bound depth : String → Parser (Run σ) C τ Value))
    (hr : ∀ name, Retraced rules W (rules name) (rules' name)) {depth depth' : Nat}
    (hdepth : depth ≤ depth') {g g' : Grammar τ} (h : Retraced rules W g g') :
    Parser.Mirrors L (g.parser bound (ruleParser rules bound depth) : Parser (Run σ) C τ Value)
      (g'.parser bound (ruleParser rules' bound depth')) := by
  induction depth generalizing depth' g g' with
  | zero =>
    refine h.mirrors_of_rules (hW 0) (fun name c => ?_) fun name g' _ c => ?_
    · exact .halt _ _
    · exact .halt _ _
  | succ depth ih =>
    obtain ⟨depth', rfl⟩ := Nat.exists_eq_add_of_lt hdepth
    refine h.mirrors_of_rules (hW _) (fun name => ?_) fun name g' hg => ?_
    · exact ih (Nat.le_add_right _ _) (hr name)
    · exact ih (Nat.le_succ_of_le (Nat.le_add_right _ _)) hg

end Descent.Grammar
