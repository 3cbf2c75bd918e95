import Descent.Proofs.Likeness.Grammar

/-! What every run keeps. An invariant of cursors and errors that is kept by moving on, by making
errors and by joining them is kept by every grammar: a run compared with itself is a likeness. -/
namespace Descent

/-- Every grammar has its own shape. -/
theorem Grammar.alike_id {τ : Type} (g : Grammar τ) : g.Alike id g := by
  induction g with
  | pure v => simpa [Value.mapPosition_id] using @Alike.pure τ id v
  | fail text => exact .fail text
  | raise e => exact .raise e
  | accept pick label => exact .accept label fun t => by simp [Value.mapPosition_id]
  | endOfInput => exact .endOfInput
  | literal text => exact .literal text
  | natural => exact .natural
  | integer => exact .integer
  | identifier => exact .identifier
  | position => exact .position
  | level => exact .level
  | spanned g ih => exact .spanned ih
  | bind g k ihg ihk => exact .bind ihg fun v => by simpa [Value.mapPosition_id] using ihk v
  | orElse g h ihg ihh => exact .orElse ihg ihh
  | choice n gs ih => exact .choice ih
  | optional g ih => exact .optional ih
  | attempt g ih => exact .attempt ih
  | lookAhead g ih => exact .lookAhead ih
  | notFollowedBy g ih => exact .notFollowedBy ih
  | ensure g test reason ih =>
    exact .ensure ih (fun v => by rw [Value.mapPosition_id]) fun v => by rw [Value.mapPosition_id]
  | repeated strict g ih => exact .repeated strict ih
  | sepBy atLeastOne g s ihg ihs => exact .sepBy atLeastOne ihg ihs
  | endBy atLeastOne g s ihg ihs => exact .endBy atLeastOne ihg ihs
  | sepEndBy atLeastOne g s ihg ihs => exact .sepEndBy atLeastOne ihg ihs
  | mapError g f ih => exact .mapError f ih
  | traced g name ih => exact .traced name ih
  | rule name => exact .rule name
  | deferred g supplier ih => exact .deferred supplier ih
  | making g renewed slots ih => exact .making renewed slots ih
  | guardLevel b relation reference ih => exact .guardLevel relation reference ih
  | block atLeastOne b h g ihb ihh ihg => exact .block atLeastOne ihb ihh ihg
  | itemsAt atLeastOne reference relation b g ihb ihg =>
    exact .itemsAt atLeastOne reference relation ihb ihg
  | optionalAt reference relation g ih => exact .optionalAt reference relation ih
  | permutation seed n slots default? combine ih =>
    have h : Alike id (permutation (seed.mapPosition id) n slots default? combine)
        (permutation seed n slots default? combine) :=
      .permutation seed ih (fun i => by simp [Value.mapPosition_id]) fun i v w => by
        simp [Value.mapPosition_id]
    simpa [Value.mapPosition_id] using h

variable {σ C τ : Type} [Cursor C τ] [Advance (Run σ) C] [DecidableEq τ]

/-- A property of cursors and one of errors that parsers keep. Moving on from a token never halts
and depends on nothing but the source. -/
structure Invariant (σ C τ : Type) [Cursor C τ] [Advance (Run σ) C] [DecidableEq τ] where
  cursor : C → Prop
  error : ParseError τ → Prop
  excused : Relation → Level → C → Prop
  advance {c : C} : cursor c → (Cursor.current c).isSome →
    InStep Eq (fun d d' => d = d' ∧ cursor d') (advance c : Run σ C) (advance c : Run σ C)
  merge {e f : ParseError τ} : error e → error f → error (e.merge f)
  relabel {e : ParseError τ} (label : String) : error e → error (e.relabel label)
  message {c : C} (text : String) : cursor c → error (.message (Cursor.position c) text)
  found {c : C} {u : Symbol τ} (x : Symbol τ) : cursor c →
    (∀ t, u = .token t → Cursor.current c = some t) → error (.found (Cursor.position c) u x)
  misplaced {c : C} {relation : Relation} {reference : Level} : cursor c →
    relation.satisfies reference (Cursor.level c) = false ∨
      Cursor.isEnd c ∧ excused relation reference c →
    error (.indentation (Cursor.position c) relation reference (Cursor.level c))

namespace Invariant

variable (I : Invariant σ C τ)

/-- What has the invariant belongs to itself. -/
def likeness : Likeness σ σ C C τ where
  source := Eq
  cursor c c' := c = c' ∧ I.cursor c'
  error e e' := e = e' ∧ I.error e'
  place := id
  excused := I.excused
  current h := by rw [h.1]
  position h := by rw [h.1]; rfl
  level h := by rw [h.1]
  offset_lt h h' := by rw [h.1, h'.1]
  advance := by
    rintro c _ ⟨rfl, hc⟩ ht
    exact I.advance hc ht
  merge := by
    rintro _ _ e f ⟨rfl, he⟩ ⟨rfl, hf⟩
    exact ⟨rfl, I.merge he hf⟩
  relabel := by
    rintro _ e label ⟨rfl, he⟩
    exact ⟨rfl, I.relabel label he⟩
  message := by
    rintro c _ text ⟨rfl, hc⟩
    exact ⟨rfl, I.message text hc⟩
  found := by
    rintro c _ u x ⟨rfl, hc⟩ hu
    exact ⟨rfl, I.found x hc hu⟩
  misplaced := by
    rintro c _ relation reference ⟨rfl, hc⟩ h
    exact ⟨rfl, I.misplaced hc h⟩

variable [Token τ]

abbrev Admits (bound : Nat) (rules : String → Parser (Run σ) C τ Value) : Grammar τ → Prop :=
  I.likeness.Admits bound rules

/-- An invariant that asks nothing of errors is kept by every grammar. -/
theorem every_admits (bound : Nat) (rules : String → Parser (Run σ) C τ Value)
    (he : ∀ e, I.error e) (hx : ∀ relation reference line, I.excused relation reference line)
    (g : Grammar τ) : g.Every (I.Admits bound rules) := by
  refine Grammar.every_of_forall (fun g => ?_) g
  have hends : g.EmptyEnds bound rules I.excused := Grammar.emptyEnds_of_forall bound hx g
  cases g with
  | raise e => exact ⟨rfl, he e⟩
  | mapError g f =>
    rintro e _ ⟨rfl, _⟩
    exact ⟨rfl, he _⟩
  | _ => exact hends

variable {bound : Nat} {rules : String → Grammar τ} {g : Grammar τ} {c : C}

section Runs

variable (hr : ∀ depth name,
    (rules name).Every (I.Admits bound (Grammar.ruleParser rules bound depth)))
include hr

theorem parser_matched (depth : Nat)
    (hg : g.Every (I.Admits bound (Grammar.ruleParser rules bound depth))) (hc : I.cursor c)
    (j : Journal σ) :
    Matched (fun a b => I.likeness.Replies (Value.Alike id) a.1 b.1 ∧ a.2.source = b.2.source)
      ((g.parser bound (Grammar.ruleParser rules bound depth) c : Run σ _) j)
      ((g.parser bound (Grammar.ruleParser rules bound depth) c : Run σ _) j) :=
  Likeness.alike_grammar
    (fun name => Likeness.alike_ruleParser (fun name => (rules name).alike_id) hr depth name)
    g.alike_id hg ⟨rfl, hc⟩ rfl

/-- Every reply leaves the input at a cursor with the invariant, and so are the errors. -/
theorem parser_ok {depth : Nat}
    (hg : g.Every (I.Admits bound (Grammar.ruleParser rules bound depth))) (hc : I.cursor c)
    {j k : Journal σ} {r : Reply C τ Value}
    (h : (g.parser bound (Grammar.ruleParser rules bound depth) c : Run σ _) j = .ok (r, k)) :
    I.cursor r.cursor ∧ ∀ f, r = .fail f → I.error f.error := by
  have hm := I.parser_matched hr depth hg hc j
  rw [h] at hm
  cases hm with
  | answered h =>
    cases h.1 with
    | ok _ hd => exact ⟨hd.2, nofun⟩
    | fail hf =>
      refine ⟨hf.2.2, ?_⟩
      rintro _ ⟨⟩
      exact hf.1.2

variable (hg : g.Every (I.Admits bound (Grammar.ruleParser rules bound bound)))
  (hc : I.cursor c)
include hg hc

theorem run_ok {j k : Journal σ} {r : Reply C τ Value}
    (h : (Grammar.run rules bound g c : Run σ _) j = .ok (r, k)) :
    I.cursor r.cursor ∧ ∀ f, r = .fail f → I.error f.error :=
  I.parser_ok hr hg hc h

/-- A run halts for no other reason than its bound. -/
theorem run_error {j : Journal σ} {h : Halt}
    (he : (Grammar.run rules bound g c : Run σ _) j = .error h) : h = .boundSpent := by
  have hm := I.parser_matched hr bound hg hc j
  rw [Grammar.run] at he
  rw [he] at hm
  cases hm
  rfl

end Runs

end Invariant

end Descent
