import Descent.Grammar.Basic
import Descent.Proofs.Permutation.Complete
import Descent.Proofs.Tracing.Basic
import Mathlib.Data.List.Forall2

/-! Parsers made of parsers that mirror others mirror what is made of the others. What a parser
does next depends on the reply of a part and never on what the part has reported, so each lemma
goes through the parts in turn. -/
namespace Descent.Parser

variable {L : LogRelation} {σ C τ α β γ : Type} {p q : Parser (Run σ) C τ α}
  {p' q' : Parser (Run σ) C τ β}

/-- One more value in front of what the rest of a repetition gives. -/
theorem mirrors_cons {x y : Run σ (Reply C τ (List α))} (h : Descent.Mirrors L x y) (v : α) :
    Descent.Mirrors L (do return (← x).map (v :: ·)) (do return (← y).map (v :: ·)) :=
  h.bind fun _ => .pure _

section Sequence

theorem mirrors_pure (v : α) : Mirrors L (pure v : Parser (Run σ) C τ α) (pure v) :=
  fun _ => .pure _

theorem mirrors_raise (e : ParseError τ) :
    Mirrors L (raise e : Parser (Run σ) C τ α) (raise e) :=
  fun _ => .pure _

/-- Parsers in sequence mirror others when the first does, and the second for every value. -/
theorem mirrors_bind {k l : α → Parser (Run σ) C τ β} (h : Mirrors L p q)
    (hk : ∀ v, Mirrors L (k v) (l v)) : Mirrors L (bind p k) (bind q l) := by
  intro c
  refine (h c).bind ?_
  rintro (⟨v, d⟩ | f)
  · exact hk v d
  · exact .pure _

theorem mirrors_map (h : Mirrors L p q) (f : α → β) : Mirrors L (map p f) (map q f) :=
  mirrors_bind h fun _ => mirrors_pure _

theorem mirrors_both (h : Mirrors L p q) (h' : Mirrors L p' q') :
    Mirrors L (both p p') (both q q') :=
  mirrors_bind h fun _ => mirrors_map h' _

theorem mirrors_keepRight (h : Mirrors L p q) (h' : Mirrors L p' q') :
    Mirrors L (keepRight p p') (keepRight q q') :=
  mirrors_bind h fun _ => h'

theorem mirrors_attempt (h : Mirrors L p q) : Mirrors L (attempt p) (attempt q) := by
  intro c
  refine (h c).bind ?_
  rintro (⟨v, d⟩ | f)
  · exact .pure _
  · exact .pure _

theorem mirrors_lookAhead (h : Mirrors L p q) : Mirrors L (lookAhead p) (lookAhead q) := by
  intro c
  refine (h c).bind ?_
  rintro (⟨v, d⟩ | f)
  · exact .pure _
  · exact .pure _

theorem mirrors_mapError (h : Mirrors L p q) (f : ParseError τ → ParseError τ) :
    Mirrors L (mapError p f) (mapError q f) := by
  intro c
  refine (h c).bind ?_
  rintro (⟨v, d⟩ | g)
  · exact .pure _
  · exact .pure _

theorem mirrors_making (renewed : Supplier → Bool) {made : List Event}
    (hmade : ∀ e ∈ made, e.Plain) (h : Mirrors L p q) :
    Mirrors L (making p renewed made) (making q renewed made) := by
  intro c
  refine (Descent.Mirrors.renew renewed).bind fun _ => Descent.Mirrors.bind ?_ fun _ => h c
  induction made with
  | nil => exact .pure _
  | cons e made ih =>
    rw [List.forall_mem_cons] at hmade
    exact (Descent.Mirrors.report hmade.1).bind fun _ => ih hmade.2

theorem mirrors_deferred {s : Supplier} (hs : L.kept s) {made : List Event}
    (hmade : ∀ e ∈ made, e.Plain) (h : Mirrors L p q) :
    Mirrors L (deferred p s made) (deferred q s made) :=
  fun c => (Descent.Mirrors.build hs hmade).bind fun _ => h c

/-- A deferred parser mirrors the parser that it builds. -/
theorem mirrors_replaced {s : Supplier} (hs : ¬L.kept s) {made : List Event}
    (hmade : L.rel (.parserBuilt s :: made) []) (h : Mirrors L p q) :
    Mirrors L (deferred p s made) q :=
  fun c => (Descent.Mirrors.built hs hmade).bind fun _ => h c

end Sequence

variable [Cursor C τ]

section Alternatives

theorem mirrors_fail (text : String) : Mirrors L (fail text : Parser (Run σ) C τ α) (fail text) :=
  fun _ => .pure _

theorem mirrors_position : Mirrors L (position : Parser (Run σ) C τ Position) position :=
  fun _ => .pure _

theorem mirrors_level : Mirrors L (level : Parser (Run σ) C τ Level) level :=
  fun _ => .pure _

theorem mirrors_spanned (h : Mirrors L p q) : Mirrors L (spanned p) (spanned q) :=
  mirrors_bind mirrors_position fun _ => mirrors_bind h fun _ => mirrors_map mirrors_position _

theorem mirrors_endOfInput : Mirrors L (endOfInput : Parser (Run σ) C τ Unit) endOfInput := by
  intro c
  unfold endOfInput
  split
  · exact .pure _
  · exact .pure _

theorem mirrors_optional (h : Mirrors L p q) : Mirrors L (optional p) (optional q) := by
  intro c
  refine (h c).bind ?_
  rintro (⟨v, d⟩ | f)
  · exact .pure _
  · exact .ite (.pure _) (.pure _)

theorem mirrors_notFollowedBy (h : Mirrors L p q) :
    Mirrors L (notFollowedBy p) (notFollowedBy q) := by
  intro c
  refine (h c).bind ?_
  rintro (⟨v, d⟩ | f)
  · exact .pure _
  · exact .pure _

theorem mirrors_ensure (h : Mirrors L p q) (test : α → Bool) (reason : α → String) :
    Mirrors L (ensure p test reason) (ensure q test reason) := by
  intro c
  refine (h c).bind ?_
  rintro (⟨v, d⟩ | f)
  · exact .ite (.pure _) (.pure _)
  · exact .pure _

variable [DecidableEq τ]

theorem mirrors_orElse {r s : Parser (Run σ) C τ α} (h : Mirrors L p q) (h' : Mirrors L r s) :
    Mirrors L (orElse p r) (orElse q s) := by
  intro c
  refine (h c).bind ?_
  rintro (⟨v, d⟩ | f)
  · exact .pure _
  · refine .ite (.pure _) ((h' c).bind ?_)
    rintro (⟨v, d⟩ | g)
    · exact .pure _
    · exact .pure _

theorem mirrors_choiceAfter {ps qs : List (Parser (Run σ) C τ α)}
    (h : List.Forall₂ (Mirrors L) ps qs) (failed : Option (Failure C τ)) :
    Mirrors L (choiceAfter failed ps) (choiceAfter failed qs) := by
  induction h generalizing failed with
  | nil => exact fun _ => .pure _
  | cons hp _ ih =>
    intro c
    refine (hp c).bind ?_
    rintro (⟨v, d⟩ | f)
    · exact .pure _
    · exact .ite (.pure _) (ih _ c)

theorem mirrors_choice {ps qs : List (Parser (Run σ) C τ α)}
    (h : List.Forall₂ (Mirrors L) ps qs) : Mirrors L (choice ps) (choice qs) :=
  mirrors_choiceAfter h none

end Alternatives

section Repetition

theorem mirrors_repeated (strict : Bool) (h : Mirrors L p q) (bound : Nat) :
    Mirrors L (repeated strict p bound) (repeated strict q bound) := by
  induction bound with
  | zero => exact fun _ => .halt _ _
  | succ bound ih =>
    intro c
    refine (h c).bind ?_
    rintro (⟨v, d⟩ | f)
    · exact .ite (.pure _) (mirrors_cons (ih d) v)
    · exact .ite (.pure _) (.pure _)

theorem mirrors_many1 (h : Mirrors L p q) (bound : Nat) :
    Mirrors L (many1 bound p) (many1 bound q) :=
  mirrors_bind h fun _ => mirrors_map (mirrors_repeated false h bound) _

theorem mirrors_sepRest (h : Mirrors L p q) (h' : Mirrors L p' q') (bound : Nat) :
    Mirrors L (sepRest p p' bound) (sepRest q q' bound) := by
  induction bound with
  | zero => exact fun _ => .halt _ _
  | succ bound ih =>
    intro c
    refine (h' c).bind ?_
    rintro (⟨_, d⟩ | f)
    · refine (h d).bind ?_
      rintro (⟨v, e⟩ | f)
      · exact mirrors_cons (ih e) v
      · exact .ite (.pure _) (.pure _)
    · exact .ite (.pure _) (.pure _)

theorem mirrors_sepBy (atLeastOne : Bool) (h : Mirrors L p q) (h' : Mirrors L p' q')
    (bound : Nat) : Mirrors L (sepBy atLeastOne p p' bound) (sepBy atLeastOne q q' bound) := by
  intro c
  refine (h c).bind ?_
  rintro (⟨v, d⟩ | f)
  · exact mirrors_cons (mirrors_sepRest h h' bound d) v
  · exact .ite (.pure _) (.pure _)

theorem mirrors_endBy (atLeastOne : Bool) (h : Mirrors L p q) (h' : Mirrors L p' q')
    (bound : Nat) : Mirrors L (endBy atLeastOne p p' bound) (endBy atLeastOne q q' bound) := by
  induction bound generalizing atLeastOne with
  | zero => exact fun _ => .halt _ _
  | succ bound ih =>
    intro c
    refine (h c).bind ?_
    rintro (⟨v, d⟩ | f)
    · refine (h' d).bind ?_
      rintro (⟨_, e⟩ | f)
      · exact mirrors_cons (ih false e) v
      · exact .pure _
    · exact .ite (.pure _) (.pure _)

theorem mirrors_sepEndBy (atLeastOne : Bool) (h : Mirrors L p q) (h' : Mirrors L p' q')
    (bound : Nat) :
    Mirrors L (sepEndBy atLeastOne p p' bound) (sepEndBy atLeastOne q q' bound) := by
  induction bound generalizing atLeastOne with
  | zero => exact fun _ => .halt _ _
  | succ bound ih =>
    intro c
    refine (h c).bind ?_
    rintro (⟨v, d⟩ | f)
    · refine (h' d).bind ?_
      rintro (⟨_, e⟩ | f)
      · exact mirrors_cons (ih false e) v
      · exact .ite (.pure _) (.pure _)
    · exact .ite (.pure _) (.pure _)

end Repetition

section Layout

theorem mirrors_checkLevel (relation : Relation) (reference : Level) :
    Mirrors L (checkLevel relation reference : Parser (Run σ) C τ Level)
      (checkLevel relation reference) :=
  fun _ => .ite (.pure _) ((Descent.Mirrors.report ⟨rfl, rfl⟩).bind fun _ => .pure _)

theorem mirrors_guardLevel (h : Mirrors L p q) (relation : Relation) (reference : Level) :
    Mirrors L (guardLevel p relation reference) (guardLevel q relation reference) :=
  mirrors_keepRight h (mirrors_checkLevel relation reference)

theorem mirrors_optionalAt (reference : Level) (relation : Relation) (h : Mirrors L p q) :
    Mirrors L (optionalAt reference relation p) (optionalAt reference relation q) := by
  intro c
  refine (h c).bind ?_
  rintro (⟨v, d⟩ | f)
  · refine (mirrors_checkLevel relation reference c).bind ?_
    rintro (⟨_, e⟩ | f)
    · exact .pure _
    · exact .pure _
  · exact .ite (.pure _) (.pure _)

theorem mirrors_missingItem (h : Mirrors L p q) (reference : Level) (line : C) :
    Descent.Mirrors L (missingItem p reference line) (missingItem q reference line) := by
  refine .ite ((h line).bind ?_) (.pure _)
  rintro (⟨v, d⟩ | f)
  · exact .pure _
  · exact .pure _

theorem mirrors_blockItems (h : Mirrors L p q) (h' : Mirrors L p' q') (reference : Level)
    (atLeastOne : Bool) (aligned : Option Level) (bound : Nat) :
    Mirrors L (blockItems p p' reference atLeastOne aligned bound)
      (blockItems q q' reference atLeastOne aligned bound) := by
  induction bound generalizing atLeastOne aligned with
  | zero => exact fun _ => .halt _ _
  | succ bound ih =>
    intro c
    refine (h c).bind ?_
    rintro (⟨_, line⟩ | f)
    · refine .ite (.ite ?_ (.pure _)) (.ite ?_ ?_)
      · exact (mirrors_missingItem h' reference line).bind fun _ => .pure _
      · refine (h' line).bind ?_
        rintro (⟨v, d⟩ | f)
        · exact mirrors_cons (ih false _ d) v
        · exact .pure _
      · exact (Descent.Mirrors.report ⟨rfl, rfl⟩).bind fun _ => .pure _
    · exact .pure _

theorem mirrors_block {head head' : Parser (Run σ) C τ γ} (atLeastOne : Bool)
    (h : Mirrors L p q) (hh : Mirrors L head head') (h' : Mirrors L p' q') (bound : Nat) :
    Mirrors L (block atLeastOne p head p' bound) (block atLeastOne q head' q' bound) := by
  refine mirrors_keepRight h (mirrors_bind mirrors_level fun reference => ?_)
  exact mirrors_both hh (mirrors_blockItems h h' reference atLeastOne none bound)

theorem mirrors_itemsAt (reference : Level) (relation : Relation) (h : Mirrors L p q)
    (h' : Mirrors L p' q') (atLeastOne : Bool) (bound : Nat) :
    Mirrors L (itemsAt reference relation p p' atLeastOne bound)
      (itemsAt reference relation q q' atLeastOne bound) := by
  induction bound generalizing atLeastOne with
  | zero => exact fun _ => .halt _ _
  | succ bound ih =>
    intro c
    refine (h c).bind ?_
    rintro (⟨_, line⟩ | f)
    · refine .ite ((h' line).bind ?_) (.ite ((h' line).bind ?_) (.pure _))
      · rintro (⟨v, d⟩ | f)
        · exact .pure _
        · exact .pure _
      · rintro (⟨v, d⟩ | f)
        · exact mirrors_cons (ih false d) v
        · exact .ite (.pure _) (.pure _)
    · exact .pure _

end Layout

section Tokens

variable [Advance (Run σ) C] [Orderly σ C]

theorem mirrors_accept (pick : τ → Option α) (label : String) :
    Mirrors L (accept pick label : Parser (Run σ) C τ α) (accept pick label) := by
  intro c
  unfold accept
  split
  · exact .pure _
  · split
    · exact .pure _
    · exact (Orderly.mirrors L c).bind fun _ => .pure _

variable [Token τ]

theorem mirrors_charOf (k : CharClass) :
    Mirrors L (charOf k : Parser (Run σ) C τ Char) (charOf k) :=
  mirrors_accept _ _

theorem mirrors_literalRest (start : C) (expected : String) (seen rest : List Char) :
    Mirrors L (literalRest start expected seen rest : Parser (Run σ) C τ String)
      (literalRest start expected seen rest) := by
  induction rest generalizing seen with
  | nil => exact fun _ => .pure _
  | cons e rest ih =>
    intro c
    unfold literalRest
    split
    · exact .ite ((Orderly.mirrors L c).bind fun d => ih _ d) (.pure _)
    · exact .pure _

theorem mirrors_literal (text : String) :
    Mirrors L (literal text : Parser (Run σ) C τ String) (literal text) :=
  fun c => mirrors_literalRest c text [] text.toList c

theorem mirrors_digits (bound : Nat) :
    Mirrors L (many1 bound digit : Parser (Run σ) C τ (List Char)) (many1 bound digit) :=
  mirrors_many1 (mirrors_charOf .digit) bound

theorem mirrors_natural (bound : Nat) :
    Mirrors L (natural bound : Parser (Run σ) C τ Nat) (natural bound) := by
  intro c
  refine (mirrors_digits bound c).bind ?_
  rintro (⟨digits, d⟩ | f)
  · exact .ite (.pure _) (.pure _)
  · exact .pure _

theorem mirrors_integer (bound : Nat) :
    Mirrors L (integer bound : Parser (Run σ) C τ Int) (integer bound) := by
  intro c
  have hsign : Mirrors L (optional (charOf .sign) : Parser (Run σ) C τ (Option Char))
      (optional (charOf .sign)) := mirrors_optional (mirrors_charOf .sign)
  refine (mirrors_both hsign (mirrors_digits bound) c).bind ?_
  rintro (⟨⟨sign, digits⟩, d⟩ | f)
  · exact .ite (.pure _) (.pure _)
  · exact .pure _

theorem mirrors_identifier (bound : Nat) :
    Mirrors L (identifier bound : Parser (Run σ) C τ String) (identifier bound) := by
  refine mirrors_bind (mirrors_mapError (mirrors_charOf .letter) _) fun _ => ?_
  exact mirrors_map (mirrors_repeated false (mirrors_charOf _) bound) _

end Tokens

end Descent.Parser

namespace Descent.Permutation

variable {L : LogRelation} {σ C τ α β : Type}

structure SlotMirrors (L : LogRelation) (s s' : Slot (Run σ) C τ α β) : Prop where
  parser : s.parser.Mirrors L s'.parser
  default : s.default? = s'.default?
  combine : s.combine = s'.combine

variable {slots slots' : List (Slot (Run σ) C τ α β)} {filled : Filled β}

theorem slot?_mirrors (h : List.Forall₂ (SlotMirrors L) slots slots') (i : Nat) :
    Option.Rel (SlotMirrors L) slots[i]? slots'[i]? := by
  induction h generalizing i with
  | nil => exact .none
  | cons hs _ ih =>
    cases i with
    | zero => exact .some hs
    | succ i => exact ih i

theorem fillDefaults_eq (h : List.Forall₂ (SlotMirrors L) slots slots') (i : Nat) :
    fillDefaults filled i slots = fillDefaults filled i slots' := by
  induction h generalizing filled i with
  | nil => rfl
  | cons hs _ ih =>
    unfold fillDefaults
    rw [hs.default]
    simp only [ih]

theorem mirrors_assemble (h : List.Forall₂ (SlotMirrors L) slots slots') (i : Nat) (a : α) :
    Mirrors L (assemble filled i slots a : Run σ α) (assemble filled i slots' a) := by
  induction h generalizing i a with
  | nil => exact .pure _
  | cons hs _ ih =>
    unfold assemble
    split
    · exact .halt _ _
    · rw [hs.combine]
      exact ih _ _

section Walk

variable (h : List.Forall₂ (SlotMirrors L) slots slots') (seed : α) (tree tree' : Orders)
include h

theorem mirrors_finish (filled : Filled β) (c : C) :
    Mirrors L (finish ⟨seed, slots, tree⟩ filled c : Run σ (Reply C τ α))
      (finish ⟨seed, slots', tree'⟩ filled c) :=
  (mirrors_assemble h 0 seed).bind fun _ => .pure _

variable [Cursor C τ] [DecidableEq τ]

/-- A walk, by induction on the orders: below a slot with the slot filled, and beside it with a
failure more. -/
theorem mirrors_walk (orders : Orders) (failed : Option (Failure C τ)) (filled : Filled β) :
    Parser.Mirrors L (walk ⟨seed, slots, tree⟩ orders failed filled)
      (walk ⟨seed, slots', tree'⟩ orders failed filled) := by
  induction orders generalizing failed filled with
  | none =>
    intro c
    cases failed with
    | none => exact mirrors_finish h seed tree tree' filled c
    | some f =>
      unfold walk
      dsimp only
      rw [fillDefaults_eq h]
      split
      · exact .pure _
      · exact mirrors_finish h seed tree tree' _ c
  | slot i rest others ihr iho =>
    intro c
    have hslot := slot?_mirrors h i
    unfold walk
    dsimp only
    generalize slots[i]? = s at hslot ⊢
    generalize slots'[i]? = s' at hslot ⊢
    cases hslot with
    | none => exact .halt _ _
    | some hs =>
      refine (hs.parser c).bind ?_
      rintro (⟨v, d⟩ | f)
      · exact ihr none _ d
      · exact .ite (.pure _) (iho _ _ c)

theorem mirrors_ofSlots : Parser.Mirrors L (parser (ofSlots seed slots) : Parser (Run σ) C τ α)
    (parser (ofSlots seed slots')) := by
  rw [ofSlots_eq, ofSlots_eq, h.length_eq]
  exact mirrors_walk h seed _ _ _ none []

end Walk

end Descent.Permutation
