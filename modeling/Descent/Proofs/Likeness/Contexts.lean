import Descent.Proofs.Invariant
import Descent.Proofs.Steady
import Mathlib.Logic.Function.Basic

/-! Grammars in a context. A context is a grammar with its rules in which one name stands for a
hole. Two grammars that differ in nothing but their errors can stand for each other in every
context: what is read, where a run stops and whether it fails depend on errors nowhere. -/
namespace Descent

variable {σ C τ α β : Type}

/-- What a reply is but for its error: the value of a success, where reading stopped, and whether
that is elsewhere than at `start`. -/
def Reply.ending [Cursor C τ] (start : C) : Reply C τ α → Option α × C × Bool
  | .ok v d => (some v, d, !Cursor.same d start)
  | .fail f => (none, f.cursor, f.consumedSince start)

namespace Grammar

/-- The grammar with `h` in the place of rule `hole`. -/
def plug (g : Grammar τ) (hole : String) (h : Grammar τ) : Grammar τ :=
  match g with
  | spanned g => spanned (g.plug hole h)
  | bind g k => bind (g.plug hole h) fun v => (k v).plug hole h
  | orElse g g' => orElse (g.plug hole h) (g'.plug hole h)
  | choice n alternatives => choice n fun i => (alternatives i).plug hole h
  | optional g => optional (g.plug hole h)
  | attempt g => attempt (g.plug hole h)
  | lookAhead g => lookAhead (g.plug hole h)
  | notFollowedBy g => notFollowedBy (g.plug hole h)
  | ensure g test reason => ensure (g.plug hole h) test reason
  | repeated strict g => repeated strict (g.plug hole h)
  | sepBy atLeastOne item separator =>
    sepBy atLeastOne (item.plug hole h) (separator.plug hole h)
  | endBy atLeastOne item separator =>
    endBy atLeastOne (item.plug hole h) (separator.plug hole h)
  | sepEndBy atLeastOne item separator =>
    sepEndBy atLeastOne (item.plug hole h) (separator.plug hole h)
  | mapError g f => mapError (g.plug hole h) f
  | traced g name => traced (g.plug hole h) name
  | rule name => if name = hole then h else rule name
  | deferred g supplier => deferred (g.plug hole h) supplier
  | making g renewed slots => making (g.plug hole h) renewed slots
  | guardLevel blanks relation reference => guardLevel (blanks.plug hole h) relation reference
  | block atLeastOne blanks head item =>
    block atLeastOne (blanks.plug hole h) (head.plug hole h) (item.plug hole h)
  | itemsAt atLeastOne reference relation blanks item =>
    itemsAt atLeastOne reference relation (blanks.plug hole h) (item.plug hole h)
  | optionalAt reference relation g => optionalAt reference relation (g.plug hole h)
  | permutation seed n slots default? combine =>
    permutation seed n (fun i => (slots i).plug hole h) default? combine
  | g => g

variable {m : Type → Type} [MonadRun m] [Cursor C τ] [Advance m C] [Token τ] [DecidableEq τ]

/-- To plug a hole is to read what it is plugged with where the rule is named. -/
theorem parser_plug (bound : Nat) (rules : String → Parser m C τ Value) (hole : String)
    (h g : Grammar τ) : (g.plug hole h).parser bound rules =
      g.parser bound (Function.update rules hole (h.parser bound rules)) := by
  induction g with
  | rule name =>
    by_cases hname : name = hole
    · subst hname
      simp [plug, parser]
    · simp [plug, parser, hname]
  | _ => simp_all [plug, parser]

end Grammar

variable [Cursor C τ] [Advance (Run σ) C] [DecidableEq τ]

/-- Runs that differ in nothing but their errors and reports. -/
def Likeness.blind (σ C τ : Type) [Cursor C τ] [Advance (Run σ) C] [DecidableEq τ] [Steady σ C] :
    Likeness σ σ C C τ where
  source := Eq
  cursor := Eq
  error _ _ := True
  place := id
  excused _ _ _ := True
  current h := congrArg _ h
  position h := congrArg _ h
  level h := congrArg _ h
  offset_lt h h' := h ▸ h' ▸ Iff.rfl
  advance h hsome := h ▸ Steady.advance (h ▸ hsome)
  merge _ _ := trivial
  relabel _ _ := trivial
  message _ _ := trivial
  found _ _ _ := trivial
  misplaced _ _ := trivial

variable [Steady σ C]

/-- What a run comes to but for errors and reports: how its reply ends and the source it leaves, or
why it halts. -/
def Run.ending (start : C) (x : Outcome (Reply C τ α × Journal σ)) :
    Outcome ((Option α × C × Bool) × σ) :=
  x.map fun a => (a.1.ending start, a.2.source)

theorem Run.ending_eq {x y : Run σ (Reply C τ Value)} {j : Journal σ}
    (h : InStep Eq ((Likeness.blind σ C τ).Replies (Value.Alike id)) x y) (start : C) :
    Run.ending start (x j) = Run.ending start (y j) := by
  have hmatched := h (j := j) (k := j) rfl
  rw [InStepFrom] at hmatched
  generalize x j = u at hmatched ⊢
  generalize y j = v at hmatched ⊢
  cases hmatched with
  | spent => rfl
  | @answered a b hab =>
    obtain ⟨r, k⟩ := a
    obtain ⟨s, l⟩ := b
    obtain ⟨hreplies, hsource⟩ := hab
    have hending : r.ending start = s.ending start := by
      cases hreplies with
      | @ok v w c d hv hc =>
        rw [Value.Alike, Value.mapPosition_id] at hv
        cases hv
        cases hc
        rfl
      | @fail f g hf =>
        have hcursor : f.cursor = g.cursor := hf.2
        simp only [Reply.ending, Failure.consumedSince, hcursor]
    exact congrArg Except.ok (Prod.ext hending hsource)

namespace Grammar

variable [Token τ] {bound : Nat} {h h' : Grammar τ}

/-- With rules that differ in nothing but errors the parsers of the two do too. -/
def Interchangeable (σ C : Type) [Cursor C τ] [Advance (Run σ) C] [Steady σ C] (bound : Nat)
    (h h' : Grammar τ) : Prop :=
  ∀ rules rules' : String → Parser (Run σ) C τ Value,
    (∀ name, (Likeness.blind σ C τ).Alike (Value.Alike id) (rules name) (rules' name)) →
    (Likeness.blind σ C τ).Alike (Value.Alike id) (h.parser bound rules) (h'.parser bound rules')

theorem blind_admits (bound : Nat) (rules : String → Parser (Run σ) C τ Value) (g : Grammar τ) :
    g.Every ((Likeness.blind σ C τ).Admits bound rules) := by
  refine every_of_forall (fun g => ?_) g
  have hends : g.EmptyEnds bound rules (Likeness.blind σ C τ).excused :=
    emptyEnds_of_forall bound (fun _ _ _ => trivial) g
  cases g with
  | raise e => trivial
  | mapError g f => exact fun _ _ _ => trivial
  | _ => exact hends

theorem Interchangeable.plug (hh : Interchangeable σ C bound h h') (hole : String)
    (g : Grammar τ) : Interchangeable σ C bound (g.plug hole h) (g.plug hole h') := by
  intro rules rules' hr
  rw [parser_plug, parser_plug]
  refine Likeness.alike_grammar (fun name => ?_) g.alike_id (blind_admits bound _ g)
  by_cases hname : name = hole
  · rw [hname, Function.update_self, Function.update_self]
    exact hh rules rules' hr
  · rw [Function.update_of_ne hname, Function.update_of_ne hname]
    exact hr name

theorem Interchangeable.alike_ruleParser (hh : Interchangeable σ C bound h h') (hole : String)
    (rules : String → Grammar τ) (depth : Nat) (name : String) :
    (Likeness.blind σ C τ).Alike (Value.Alike id)
      (ruleParser (fun name => (rules name).plug hole h) bound depth name)
      (ruleParser (fun name => (rules name).plug hole h') bound depth name) := by
  induction depth generalizing name with
  | zero => exact fun _ _ _ => .spent
  | succ depth ih => exact hh.plug hole (rules name) _ _ ih

/-- In every context, in its rules too, two grammars that differ in nothing but errors make runs
that end alike. -/
theorem Interchangeable.run_ending (hh : Interchangeable σ C bound h h') (hole : String)
    (rules : String → Grammar τ) (g : Grammar τ) (c : C) (j : Journal σ) :
    Run.ending c
        ((run (fun name => (rules name).plug hole h) bound (g.plug hole h) c : Run σ _) j) =
      Run.ending c
        ((run (fun name => (rules name).plug hole h') bound (g.plug hole h') c : Run σ _) j) :=
  Run.ending_eq (hh.plug hole g _ _ (hh.alike_ruleParser hole rules bound) rfl) c

end Grammar

end Descent
