import Descent.Grammar.Basic
import Mathlib.Data.List.Forall2

/-! Grammars of one shape. What stands in two of them may differ in the positions that values hold:
those of one are those of the other, replaced. The functions in the grammars have to respect
that. -/
namespace Descent

namespace Value

mutual

def mapPosition (place : Position → Position) : Value → Value
  | position p => position (place p)
  | spanned v s => spanned (v.mapPosition place) ⟨place s.start, place s.stop⟩
  | present v => present (v.mapPosition place)
  | pair v w => pair (v.mapPosition place) (w.mapPosition place)
  | list vs => list (mapPositions place vs)
  | v => v

def mapPositions (place : Position → Position) : List Value → List Value
  | [] => []
  | v :: vs => v.mapPosition place :: mapPositions place vs

end

variable {place : Position → Position}

theorem mapPositions_eq (vs : List Value) :
    mapPositions place vs = vs.map (·.mapPosition place) := by
  induction vs with
  | nil => rfl
  | cons v vs ih => rw [mapPositions, ih, List.map_cons]

mutual

theorem mapPosition_id : (v : Value) → v.mapPosition id = v
  | position _ | unit | char _ | text _ | natural _ | integer _ | level _ | absent => rfl
  | spanned v _ => by rw [mapPosition, mapPosition_id v]; rfl
  | present v => by rw [mapPosition, mapPosition_id v]
  | pair v w => by rw [mapPosition, mapPosition_id v, mapPosition_id w]
  | list vs => by rw [mapPosition, mapPositions_id vs]

theorem mapPositions_id : (vs : List Value) → mapPositions id vs = vs
  | [] => rfl
  | v :: vs => by rw [mapPositions, mapPosition_id v, mapPositions_id vs]

end

def Alike (place : Position → Position) (v w : Value) : Prop := v = w.mapPosition place

theorem list_alike {vs ws : List Value} (h : List.Forall₂ (Alike place) vs ws) :
    Alike place (.list vs) (.list ws) := by
  have hvs : vs = ws.map (·.mapPosition place) := by
    induction h with
    | nil => rfl
    | cons hv _ ih => rw [hv, ih, List.map_cons]
  rw [Alike, mapPosition, mapPositions_eq, hvs]

theorem option_alike (o : Option Value) :
    Option.Rel (Alike place) (o.map (·.mapPosition place)) o := by
  cases o with
  | none => exact .none
  | some v => exact .some rfl

theorem ofOption_alike {o o' : Option Value} (h : Option.Rel (Alike place) o o') :
    Alike place (ofOption o) (ofOption o') := by
  cases h with
  | none => rfl
  | some hv => exact congrArg present hv

end Value

namespace Grammar

variable {τ : Type}

def Every (P : Grammar τ → Prop) : Grammar τ → Prop
  | spanned g => P (spanned g) ∧ g.Every P
  | bind g k => P (bind g k) ∧ g.Every P ∧ ∀ v, (k v).Every P
  | orElse g h => P (orElse g h) ∧ g.Every P ∧ h.Every P
  | choice n alternatives => P (choice n alternatives) ∧ ∀ i, (alternatives i).Every P
  | optional g => P (optional g) ∧ g.Every P
  | attempt g => P (attempt g) ∧ g.Every P
  | lookAhead g => P (lookAhead g) ∧ g.Every P
  | notFollowedBy g => P (notFollowedBy g) ∧ g.Every P
  | ensure g test reason => P (ensure g test reason) ∧ g.Every P
  | repeated strict g => P (repeated strict g) ∧ g.Every P
  | sepBy atLeastOne item separator =>
    P (sepBy atLeastOne item separator) ∧ item.Every P ∧ separator.Every P
  | endBy atLeastOne item separator =>
    P (endBy atLeastOne item separator) ∧ item.Every P ∧ separator.Every P
  | sepEndBy atLeastOne item separator =>
    P (sepEndBy atLeastOne item separator) ∧ item.Every P ∧ separator.Every P
  | mapError g f => P (mapError g f) ∧ g.Every P
  | traced g name => P (traced g name) ∧ g.Every P
  | deferred g supplier => P (deferred g supplier) ∧ g.Every P
  | making g renewed slots => P (making g renewed slots) ∧ g.Every P
  | guardLevel blanks relation reference =>
    P (guardLevel blanks relation reference) ∧ blanks.Every P
  | block atLeastOne blanks head item =>
    P (block atLeastOne blanks head item) ∧ blanks.Every P ∧ head.Every P ∧ item.Every P
  | itemsAt atLeastOne reference relation blanks item =>
    P (itemsAt atLeastOne reference relation blanks item) ∧ blanks.Every P ∧ item.Every P
  | optionalAt reference relation g => P (optionalAt reference relation g) ∧ g.Every P
  | permutation seed n slots default? combine =>
    P (permutation seed n slots default? combine) ∧ ∀ i, (slots i).Every P
  | g => P g

theorem every_of_forall {P : Grammar τ → Prop} (h : ∀ g, P g) (g : Grammar τ) : g.Every P := by
  induction g <;> simp_all [Every]

theorem Every.mono {P Q : Grammar τ → Prop} (h : ∀ g, P g → Q g) {g : Grammar τ}
    (hg : g.Every P) : g.Every Q := by
  induction g <;> simp_all [Every]

/-- A grammar that makes no errors of its own: it raises none, and changes them only to name what
was expected. -/
def Plain : Grammar τ → Prop
  | raise _ => False
  | mapError _ f => ∃ label, f = (·.relabel label)
  | _ => True

/-- Two grammars of one shape, whose values and functions belong together when positions are
replaced by `place`. -/
inductive Alike (place : Position → Position) : Grammar τ → Grammar τ → Prop where
  | pure (v : Value) : Alike place (pure (v.mapPosition place)) (pure v)
  | fail (text : String) : Alike place (fail text) (fail text)
  | raise (e : ParseError τ) : Alike place (raise e) (raise e)
  | accept {pick pick' : τ → Option Value} (label : String)
      (h : ∀ t, pick t = (pick' t).map (·.mapPosition place)) :
      Alike place (accept pick label) (accept pick' label)
  | endOfInput : Alike place endOfInput endOfInput
  | literal (text : String) : Alike place (literal text) (literal text)
  | natural : Alike place natural natural
  | integer : Alike place integer integer
  | identifier : Alike place identifier identifier
  | position : Alike place position position
  | level : Alike place level level
  | spanned {g g' : Grammar τ} (hg : Alike place g g') : Alike place (spanned g) (spanned g')
  | bind {g g' : Grammar τ} {k k' : Value → Grammar τ} (hg : Alike place g g')
      (hk : ∀ v, Alike place (k (v.mapPosition place)) (k' v)) :
      Alike place (bind g k) (bind g' k')
  | orElse {g g' h h' : Grammar τ} (hg : Alike place g g') (hh : Alike place h h') :
      Alike place (orElse g h) (orElse g' h')
  | choice {n : Nat} {gs gs' : Fin n → Grammar τ} (h : ∀ i, Alike place (gs i) (gs' i)) :
      Alike place (choice n gs) (choice n gs')
  | optional {g g' : Grammar τ} (hg : Alike place g g') : Alike place (optional g) (optional g')
  | attempt {g g' : Grammar τ} (hg : Alike place g g') : Alike place (attempt g) (attempt g')
  | lookAhead {g g' : Grammar τ} (hg : Alike place g g') :
      Alike place (lookAhead g) (lookAhead g')
  | notFollowedBy {g g' : Grammar τ} (hg : Alike place g g') :
      Alike place (notFollowedBy g) (notFollowedBy g')
  | ensure {g g' : Grammar τ} {test test' : Value → Bool} {reason reason' : Value → String}
      (hg : Alike place g g') (ht : ∀ v, test (v.mapPosition place) = test' v)
      (hr : ∀ v, reason (v.mapPosition place) = reason' v) :
      Alike place (ensure g test reason) (ensure g' test' reason')
  | repeated (strict : Bool) {g g' : Grammar τ} (hg : Alike place g g') :
      Alike place (repeated strict g) (repeated strict g')
  | sepBy (atLeastOne : Bool) {g g' s s' : Grammar τ} (hg : Alike place g g')
      (hs : Alike place s s') : Alike place (sepBy atLeastOne g s) (sepBy atLeastOne g' s')
  | endBy (atLeastOne : Bool) {g g' s s' : Grammar τ} (hg : Alike place g g')
      (hs : Alike place s s') : Alike place (endBy atLeastOne g s) (endBy atLeastOne g' s')
  | sepEndBy (atLeastOne : Bool) {g g' s s' : Grammar τ} (hg : Alike place g g')
      (hs : Alike place s s') : Alike place (sepEndBy atLeastOne g s) (sepEndBy atLeastOne g' s')
  | mapError (f : ParseError τ → ParseError τ) {g g' : Grammar τ} (hg : Alike place g g') :
      Alike place (mapError g f) (mapError g' f)
  | traced (name : String) {g g' : Grammar τ} (hg : Alike place g g') :
      Alike place (traced g name) (traced g' name)
  | rule (name : String) : Alike place (rule name) (rule name)
  | deferred (supplier : Supplier) {g g' : Grammar τ} (hg : Alike place g g') :
      Alike place (deferred g supplier) (deferred g' supplier)
  | making (renewed : Supplier → Bool) (slots : List Nat) {g g' : Grammar τ}
      (hg : Alike place g g') : Alike place (making g renewed slots) (making g' renewed slots)
  | guardLevel (relation : Relation) (reference : Level) {b b' : Grammar τ}
      (hb : Alike place b b') :
      Alike place (guardLevel b relation reference) (guardLevel b' relation reference)
  | block (atLeastOne : Bool) {b b' h h' g g' : Grammar τ} (hb : Alike place b b')
      (hh : Alike place h h') (hg : Alike place g g') :
      Alike place (block atLeastOne b h g) (block atLeastOne b' h' g')
  | itemsAt (atLeastOne : Bool) (reference : Level) (relation : Relation) {b b' g g' : Grammar τ}
      (hb : Alike place b b') (hg : Alike place g g') :
      Alike place (itemsAt atLeastOne reference relation b g)
        (itemsAt atLeastOne reference relation b' g')
  | optionalAt (reference : Level) (relation : Relation) {g g' : Grammar τ}
      (hg : Alike place g g') :
      Alike place (optionalAt reference relation g) (optionalAt reference relation g')
  | permutation (seed : Value) {n : Nat} {slots slots' : Fin n → Grammar τ}
      {default? default?' : Fin n → Option Value} {combine combine' : Fin n → Value → Value → Value}
      (hs : ∀ i, Alike place (slots i) (slots' i))
      (hd : ∀ i, default? i = (default?' i).map (·.mapPosition place))
      (hc : ∀ i v w, combine i (v.mapPosition place) (w.mapPosition place) =
        (combine' i v w).mapPosition place) :
      Alike place (permutation (seed.mapPosition place) n slots default? combine)
        (permutation seed n slots' default?' combine')

end Grammar

end Descent
