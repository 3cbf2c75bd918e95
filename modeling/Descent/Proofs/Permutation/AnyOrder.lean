import Descent.Proofs.Forward
import Descent.Proofs.Permutation.Loop
import Descent.Proofs.Success

/-! The order of the items does not matter. Where never more than one slot can match, a permutation
reads the items in whatever order they come, and what it makes of them depends on the values of the
slots alone. -/
namespace Descent

variable {σ C τ α β : Type}

structure Input (σ C : Type) where
  cursor : C → Prop
  source : σ → Prop

/-- In whatever state the source is, the parser ends from `c` with a reply that `R` holds of. -/
def Parser.Ends (I : Input σ C) (p : Parser (Run σ) C τ α) (c : C) (R : Reply C τ α → Prop) :
    Prop :=
  ∀ ⦃j : Journal σ⦄, I.source j.source → ∃ r l, p c j = .ok (r, l) ∧ R r ∧ I.source l.source

def Parser.Matches (I : Input σ C) (p : Parser (Run σ) C τ α) (c : C) (v : α) (d : C) : Prop :=
  p.Ends I c (· = .ok v d)

def Parser.Misses [Cursor C τ] (I : Input σ C) (p : Parser (Run σ) C τ α) (c : C) : Prop :=
  p.Ends I c fun r => ∃ f, r = .fail f ∧ f.consumedSince c = false

namespace Permutation

variable [Cursor C τ]

section Arrangements

variable (I : Input σ C) (slots : List (Slot (Run σ) C τ α β))

/-- At every cursor all slots but one miss, or all of them do. -/
def Exclusive : Prop :=
  ∀ c, I.cursor c → ∀ i k : Fin slots.length, i ≠ k →
    slots[i].parser.Misses I c ∨ slots[k].parser.Misses I c

variable (values : Fin slots.length → Option β)

/-- The slots in a list match one after another, each from where the one before has ended. -/
inductive MatchInTurn : List (Fin slots.length) → C → C → Prop where
  | nil (c : C) : MatchInTurn [] c c
  | cons {i : Fin slots.length} {order : List (Fin slots.length)} {v : β} {c d e : C}
      (hc : I.cursor c) (hv : values i = some v) (hp : slots[i].parser.Matches I c v d)
      (h : MatchInTurn order d e) : MatchInTurn (i :: order) c e

/-- The slots that have values match in this order and lead from `c` to `e`, where the others
miss. -/
structure Arrangement (order : List (Fin slots.length)) (c e : C) : Prop where
  nodup : order.Nodup
  mem_iff : ∀ i, i ∈ order ↔ (values i).isSome
  inTurn : MatchInTurn I slots values order c e
  others : ∀ i, values i = none → slots[i].parser.Misses I e

end Arrangements

variable [DecidableEq τ] {I : Input σ C} {slots : List (Slot (Run σ) C τ α β)}
  {free others : List (Fin slots.length)} {i k : Fin slots.length} {v : β} {c d e : C}
  {j : Journal σ}

section Rounds

/-- A slot that misses leaves the round to the next. -/
theorem round_of_missed (hi : slots[i].parser.Misses I c) (hj : I.source j.source)
    (failed : Option (Failure C τ)) (h : i :: k :: others ⊆ free) :
    ∃ f l, round slots c failed i (k :: others) h j =
      round slots c (some f) k others (List.cons_subset.1 h).2 l ∧ I.source l.source := by
  obtain ⟨_, l, hp, ⟨f, rfl, hf⟩, hl⟩ := hi hj
  refine ⟨f.after failed, l, ?_, hl⟩
  rw [round, Run.bind_of_ok hp]
  simp only [hf, Bool.false_eq_true, if_false]

/-- A round in which all slots miss comes to its end. -/
theorem round_missed (hmiss : ∀ l ∈ i :: others, slots[l].parser.Misses I c)
    (hj : I.source j.source) (failed : Option (Failure C τ)) (h : i :: others ⊆ free) :
    ∃ f l, round slots c failed i others h j = .ok (.missed f, l) ∧ I.source l.source := by
  induction others generalizing i failed j with
  | nil =>
    obtain ⟨_, l, hp, ⟨f, rfl, hf⟩, hl⟩ := hmiss i List.mem_cons_self hj
    refine ⟨f.after failed, l, ?_, hl⟩
    rw [round, Run.bind_of_ok hp]
    simp only [hf, Bool.false_eq_true, if_false]
    rfl
  | cons k others ih =>
    obtain ⟨f, l, hround, hl⟩ := round_of_missed (hmiss i List.mem_cons_self) hj failed h
    rw [hround]
    exact ih (fun l hl => hmiss l (List.mem_cons_of_mem i hl)) hl _ _

theorem round_of_matched (hp : slots[i].parser.Matches I c v d) (hj : I.source j.source)
    (failed : Option (Failure C τ)) (h : i :: others ⊆ free) :
    ∃ l, round slots c failed i others h j = .ok (.matched i (h List.mem_cons_self) v d, l) ∧
      I.source l.source := by
  obtain ⟨_, l, hp, rfl, hl⟩ := hp hj
  refine ⟨l, ?_, hl⟩
  rw [round, Run.bind_of_ok hp]
  rfl

/-- A round in which one slot matches and all others miss ends with the one, wherever it stands. -/
theorem round_matched (hk : k ∈ i :: others) (hp : slots[k].parser.Matches I c v d)
    (hmiss : ∀ l ≠ k, slots[l].parser.Misses I c) (hj : I.source j.source)
    (failed : Option (Failure C τ)) (h : i :: others ⊆ free) :
    ∃ l, round slots c failed i others h j = .ok (.matched k (h hk) v d, l) ∧
      I.source l.source := by
  induction others generalizing i failed j with
  | nil =>
    obtain rfl : k = i := List.mem_singleton.1 hk
    exact round_of_matched hp hj failed h
  | cons i' others ih =>
    by_cases hki : k = i
    · subst hki
      exact round_of_matched hp hj failed h
    · obtain ⟨f, l, hround, hl⟩ := round_of_missed (hmiss i (Ne.symm hki)) hj failed h
      rw [hround]
      exact ih ((List.mem_cons.1 hk).resolve_left hki) hl _ _

end Rounds

section Loops

variable {values current : Fin slots.length → Option β} {order : List (Fin slots.length)}

/-- At the end of all items the loop combines the values that are there with the defaults. -/
theorem loop_stops (seed : α) (h : ∀ i, (settled slots values i).isSome)
    (hmiss : ∀ i, values i = none → slots[i].parser.Misses I e) :
    Parser.Matches I (loop slots seed values) e
      (combined slots seed fun i => (settled slots values i).get (h i)) e := by
  intro j hj
  cases hfree : free slots values with
  | nil => exact ⟨_, j, by rw [loop_of_nil seed e hfree]; rfl, rfl, hj⟩
  | cons i others =>
    have hnone (l : Fin slots.length) (hl : l ∈ i :: others) : values l = none :=
      mem_free.1 (hfree ▸ hl)
    obtain ⟨f, l, hround, hl⟩ := round_missed (fun l hl => hmiss l (hnone l hl)) hj none
      (List.Subset.refl (i :: others))
    refine ⟨_, l, ?_, rfl, hl⟩
    rw [← midRound_eq_loop seed e hfree, midRound, Run.bind_of_ok hround, afterRound, dif_pos h]
    rfl

/-- The loop takes the slots in the order in which they match, by induction on the order. -/
theorem loop_in_turn (hx : Exclusive I slots) (seed : α)
    (h : ∀ i, (settled slots values i).isSome) (hin : MatchInTurn I slots values order c e)
    (hnodup : order.Nodup) (hmiss : ∀ i, values i = none → slots[i].parser.Misses I e)
    (hcurrent : ∀ i, current i = if i ∈ order then none else values i) :
    Parser.Matches I (loop slots seed current) c
      (combined slots seed fun i => (settled slots values i).get (h i)) e := by
  induction hin generalizing current with
  | nil c =>
    obtain rfl : current = values := funext fun i => by simpa using hcurrent i
    exact loop_stops seed h hmiss
  | @cons i order v c d e hc hv hp _ ih =>
    intro j hj
    obtain ⟨hi, hnodup⟩ := List.nodup_cons.1 hnodup
    have hothers (k : Fin slots.length) (hk : k ≠ i) : slots[k].parser.Misses I c := by
      refine (hx c hc k i hk).resolve_right fun hmiss => ?_
      obtain ⟨_, _, hfail, ⟨f, rfl, _⟩, _⟩ := hmiss hj
      obtain ⟨_, _, hok, rfl, _⟩ := hp hj
      cases hfail.symm.trans hok
    have hmem : i ∈ free slots current :=
      mem_free.2 ((hcurrent i).trans (if_pos List.mem_cons_self))
    have hnext (k : Fin slots.length) :
        Function.update current i (some v) k = if k ∈ order then none else values k := by
      by_cases hk : k = i
      · subst hk
        rw [Function.update_self, if_neg hi, hv]
      · rw [Function.update_of_ne hk, hcurrent]
        simp [hk]
    cases hfree : free slots current with
    | nil =>
      rw [hfree] at hmem
      cases hmem
    | cons k others =>
      obtain ⟨l, hround, hl⟩ := round_matched (hfree ▸ hmem) hp hothers hj none
        (List.Subset.refl (k :: others))
      obtain ⟨r, l', hloop, hr⟩ := ih hnodup hmiss hnext hl
      refine ⟨r, l', ?_, hr⟩
      rw [← midRound_eq_loop seed c hfree, midRound, Run.bind_of_ok hround]
      exact hloop

end Loops

/-- What a permutation makes of its items does not depend on their order. -/
theorem matches_in_any_order (seed : α) {values : Fin slots.length → Option β}
    (h : ∀ i, (settled slots values i).isSome) :
    ∃ a, a = combined slots seed (fun i => (settled slots values i).get (h i)) ∧
      ∀ (I : Input σ C) (order : List (Fin slots.length)) (c e : C), Exclusive I slots →
        Arrangement I slots values order c e → (ofSlots seed slots).parser.Matches I c a e := by
  refine ⟨_, rfl, fun I order c e hx harr => ?_⟩
  have hcurrent (i : Fin slots.length) : none = if i ∈ order then none else values i := by
    split
    · rfl
    · rename_i hi
      rw [harr.mem_iff, Option.not_isSome_iff_eq_none] at hi
      exact hi.symm
  have hparser : (ofSlots seed slots).parser c = loop slots seed (fun _ => none) c := by
    rw [ofSlots_eq]
    exact walk_all seed slots c
  intro j hj
  rw [hparser]
  exact loop_in_turn hx seed h harr.inTurn harr.nodup harr.others hcurrent hj

section Letters

def anywhere : Input Unit (TokenCursor Char) := ⟨fun _ => True, fun _ => True⟩

/-- Where another letter stands, or none, a letter is missed. -/
theorem misses_token {t : Char} {c : TokenCursor Char} (h : Cursor.current c ≠ some t) :
    (Parser.token t : Parser (Run Unit) _ _ _).Misses anywhere c := by
  have hpick (u : Char) (hu : Cursor.current c = some u) : Option.guard (· == t) u = none := by
    simp only [Option.guard_eq_none_iff, beq_eq_false_iff_ne]
    rintro rfl
    exact h hu
  intro j _
  obtain ⟨f, l, hp, hf⟩ := Parser.refuses_accept (σ := Unit) hpick (Token.quoted t) j
  exact ⟨_, l, hp, ⟨f, rfl, hf⟩, trivial⟩

/-- At most one letter stands in front of a cursor. -/
theorem exclusive_letterSlots {letters : List (Char × Option Char)}
    (h : (letters.map Prod.fst).Nodup) : Exclusive anywhere (letterSlots letters) := by
  have hlength : (letterSlots letters).length = (letters.map Prod.fst).length := by
    simp [letterSlots]
  let letter (i : Fin (letterSlots letters).length) : Char :=
    (letters.map Prod.fst).get (i.cast hlength)
  have hparser (i : Fin (letterSlots letters).length) :
      (letterSlots letters)[i].parser = Parser.token (letter i) := by
    refine (congrArg Slot.parser (List.getElem_map _)).trans ?_
    exact congrArg Parser.token (List.getElem_map _).symm
  intro c _ i k hik
  rw [hparser, hparser]
  by_cases hi : Cursor.current c = some (letter i)
  · right
    refine misses_token fun hk => hik (Fin.ext ?_)
    exact h.getElem_inj_iff.1 (Option.some.inj (hi.symm.trans hk))
  · left
    exact misses_token hi

/-- The `c` comes before the `a`, and there is no `b`. -/
theorem matches_in_any_order_letters :
    let slots := letterSlots [('a', none), ('b', some 'd'), ('c', none)]
    let values : Fin slots.length → Option Char := fun i => [some 'a', none, some 'c'].getD i none
    let start := TokenCursor.ofText "ca!" 4
    Exclusive anywhere slots ∧
      Arrangement anywhere slots values [⟨2, by decide⟩, ⟨0, by decide⟩] start (start.forward 2) ∧
      (ofSlots [] slots).parser.Matches anywhere start ['a', 'd', 'c'] (start.forward 2) := by
  intro slots values start
  have hx : Exclusive anywhere slots := exclusive_letterSlots (by decide)
  have harr : Arrangement anywhere slots values [⟨2, by decide⟩, ⟨0, by decide⟩] start
      (start.forward 2) := by
    refine ⟨by decide, by decide, ?_, ?_⟩
    · refine .cons (d := start.forward 1) (v := 'c') trivial rfl ?_
        (.cons (v := 'a') trivial rfl ?_ (.nil _))
      · exact fun j _ => ⟨_, j, rfl, rfl, trivial⟩
      · exact fun j _ => ⟨_, j, rfl, rfl, trivial⟩
    · intro i hi
      obtain rfl : i = ⟨1, by decide⟩ := by
        revert i
        decide
      exact misses_token (by decide)
  obtain ⟨_, rfl, hall⟩ :=
    matches_in_any_order (σ := Unit) [] (show ∀ i, (settled slots values i).isSome by decide)
  exact ⟨hx, harr, hall anywhere _ _ _ hx harr⟩

end Letters

end Permutation

end Descent
