import Descent.Cursor.Memory
import Descent.Proofs.Permutation.Complete
import Descent.Proofs.Permutation.Offers
import Mathlib.Data.List.FinRange
import Mathlib.Logic.Function.Basic

/-! Permutations without trees. A loop tries the slots that have no value yet, the last one first,
and starts anew behind the first that succeeds. It keeps no orders, only the values, and it is
what walking the tree of all orders comes to, for parsers with any effects. -/
namespace Descent.Permutation

variable {m : Type → Type} {C τ α β : Type}

section Values

variable (slots : List (Slot m C τ α β)) (values : Fin slots.length → Option β)

def free : List (Fin slots.length) :=
  (List.finRange slots.length).reverse.filter fun i => (values i).isNone

def settled (i : Fin slots.length) : Option β := (values i).or slots[i].default?

def combined (seed : α) (values : Fin slots.length → β) : α :=
  Fin.foldl slots.length (fun acc i => slots[i].combine acc (values i)) seed

variable {slots values}

theorem mem_free {i : Fin slots.length} : i ∈ free slots values ↔ values i = none := by
  simp [free]

theorem nodup_free : (free slots values).Nodup :=
  (List.nodup_reverse.2 (List.nodup_finRange _)).filter _

/-- A slot that gets a value is free no longer, and the others are as before. -/
theorem free_update {i : Fin slots.length} (v : β) :
    free slots (Function.update values i (some v)) = (free slots values).erase i := by
  rw [nodup_free.erase_eq_filter, free, free, List.filter_filter]
  refine List.filter_congr fun k _ => ?_
  by_cases h : k = i
  · subst h
    simp
  · simp [h]

theorem isSome_of_free_eq_nil (h : free slots values = []) (i : Fin slots.length) :
    (values i).isSome := by
  refine Option.isSome_iff_ne_none.2 fun hi => ?_
  have hmem : i ∈ free slots values := mem_free.2 hi
  rw [h] at hmem
  cases hmem

/-- Where no slot is free no default counts. -/
theorem settled_eq_of_free_eq_nil (h : free slots values = []) (i : Fin slots.length) :
    settled slots values i = values i :=
  Option.or_of_isSome (isSome_of_free_eq_nil h i)

theorem settled_of_free_eq_nil (h : free slots values = []) (i : Fin slots.length) :
    (settled slots values i).isSome := by
  rw [settled_eq_of_free_eq_nil h]
  exact isSome_of_free_eq_nil h i

end Values

section Loop

/-- How a round over the slots in `free` ends: one of them has matched, one has failed after it
consumed input, or all of them have failed and consumed nothing. -/
inductive Round (C τ β : Type) {n : Nat} (free : List (Fin n)) where
  | matched (i : Fin n) (h : i ∈ free) (v : β) (next : C)
  | committed (f : Failure C τ)
  | missed (f : Failure C τ)

variable [MonadRun m] [Cursor C τ] [DecidableEq τ] (slots : List (Slot m C τ α β))

/-- Tries slot `i` at `c` and then the others in turn, until one of them does not fail or consumes
input. The failures are merged as they come. -/
def round {free : List (Fin slots.length)} (c : C) (failed : Option (Failure C τ))
    (i : Fin slots.length) (others : List (Fin slots.length)) (h : i :: others ⊆ free) :
    m (Round C τ β free) := do
  match ← slots[i].parser c with
  | .ok v next => return .matched i (h List.mem_cons_self) v next
  | .fail f =>
    if f.consumedSince c then return .committed f
    else
      match others, h with
      | [], _ => return .missed (f.after failed)
      | k :: others, h => round c (some (f.after failed)) k others (List.cons_subset.1 h).2

/-- Goes round over the free slots, from cursor to cursor, until there are none or all of them
miss. Then the defaults stand in, or the failure of the last round is returned where a free slot
has none. -/
def loop (seed : α) (values : Fin slots.length → Option β) (c : C) : m (Reply C τ α) :=
  match hfree : free slots values with
  | [] =>
    return .ok (combined slots seed fun i =>
      (settled slots values i).get (settled_of_free_eq_nil hfree i)) c
  | i :: others => do
    match ← round slots c none i others (List.Subset.refl (i :: others)) with
    | .matched k _hk v next => loop seed (Function.update values k (some v)) next
    | .committed f => return .fail f
    | .missed f =>
      if h : ∀ k, (settled slots values k).isSome then
        return .ok (combined slots seed fun k => (settled slots values k).get (h k)) c
      else return .fail f
termination_by (free slots values).length
decreasing_by
  rw [free_update, hfree, List.length_erase_of_mem _hk]
  exact Nat.sub_one_lt (by simp)

end Loop

section Agreement

variable {slots : List (Slot m C τ α β)} {filled : Filled β} {i : Nat}

theorem combined_cons (s : Slot m C τ α β) (slots : List (Slot m C τ α β)) (seed : α)
    (values : Fin (s :: slots).length → β) :
    combined (s :: slots) seed values =
      combined slots (s.combine seed (values 0)) fun i => values i.succ :=
  Fin.foldl_succ _ _

variable [MonadRun m]

/-- With a value for every slot there is a combination. -/
theorem assemble_eq {values : Fin slots.length → β}
    (h : ∀ k : Fin slots.length, filled.lookup (i + k) = some (values k)) (seed : α) :
    assemble filled i slots seed = (pure (combined slots seed values) : m α) := by
  induction slots generalizing i seed with
  | nil => rfl
  | cons s slots ih =>
    have hfirst : filled.lookup i = some (values 0) := h 0
    rw [assemble, hfirst, combined_cons]
    refine ih (fun k => ?_) _
    rw [← h k.succ, Fin.val_succ, Nat.add_assoc, Nat.add_comm 1]

theorem finish_eq [LawfulMonad m] {perm : Permutation m C τ α β}
    {values : Fin perm.slots.length → β}
    (h : ∀ k : Fin perm.slots.length, filled.lookup k.val = some (values k)) (c : C) :
    perm.finish filled c = return .ok (combined perm.slots perm.seed values) c := by
  have hassemble := assemble_eq (m := m) (i := 0) (fun k => by rw [Nat.zero_add, h k]) perm.seed
  rw [finish, hassemble, pure_bind]

variable [Cursor C τ] [DecidableEq τ] (seed : α) (values : Fin slots.length → Option β) (c : C)

def afterRound {free : List (Fin slots.length)} : Round C τ β free → m (Reply C τ α)
  | .matched k _ v next => loop slots seed (Function.update values k (some v)) next
  | .committed f => return .fail f
  | .missed f =>
    if h : ∀ k, (settled slots values k).isSome then
      return .ok (combined slots seed fun k => (settled slots values k).get (h k)) c
    else return .fail f

/-- The rest of the loop when in a round from `c` the slots in `untried` are still to come and the
others have missed. -/
def midRound {free : List (Fin slots.length)} (failed : Option (Failure C τ)) :
    (untried : List (Fin slots.length)) → untried ⊆ free → m (Reply C τ α)
  | i :: others, h => round slots c failed i others h >>= afterRound seed values c
  | [], _ =>
    match failed with
    | none => loop slots seed values c
    | some f => afterRound seed values c (.missed f : Round C τ β free)

variable {values}

theorem loop_of_nil (h : free slots values = []) :
    loop slots seed values c = (return .ok (combined slots seed fun i =>
      (settled slots values i).get (settled_of_free_eq_nil h i)) c : m (Reply C τ α)) := by
  rw [loop]
  split
  · rfl
  · rename_i h'
    rw [h] at h'
    cases h'

/-- A round in which all free slots are still to come is the loop. -/
theorem midRound_eq_loop {untried : List (Fin slots.length)} (h : free slots values = untried) :
    midRound seed values c none untried (List.Subset.refl _) =
      (loop slots seed values c : m (Reply C τ α)) := by
  cases untried with
  | nil => rfl
  | cons i others =>
    rw [loop]
    split
    · rename_i hnil
      rw [h] at hnil
      cases hnil
    · rename_i hcons
      cases h.symm.trans hcons
      refine congrArg (round slots c none i others _ >>= ·) (funext fun r => ?_)
      cases r <;> rfl

variable [LawfulMonad m] {perm : Permutation m C τ α β} {t : Orders}
  {values : Fin perm.slots.length → Option β}

/-- When nothing more matches, the values that are there and the defaults for the others are
combined, or the failure is returned where a slot has neither. -/
theorem walk_none_some (hv : ∀ k : Fin perm.slots.length, filled.lookup k.val = values k)
    (f : Failure C τ) :
    perm.walk .none (some f) filled c =
      afterRound perm.seed values c (.missed f : Round C τ β (free perm.slots values)) := by
  have hsettled (k : Fin perm.slots.length) :
      (filled.lookup (0 + k.val)).or (perm.slots.get k).default? = settled perm.slots values k := by
    rw [Nat.zero_add, hv, settled, List.get_eq_getElem]
    rfl
  have hall : (fillDefaults filled 0 perm.slots).isSome ↔
      ∀ k, (settled perm.slots values k).isSome := by
    rw [isSome_fillDefaults]
    simp only [hsettled]
  rw [walk, afterRound]
  cases hfill : fillDefaults filled 0 perm.slots with
  | none =>
    rw [hfill] at hall
    rw [dif_neg fun h => nomatch hall.2 h]
  | some filled' =>
    rw [hfill] at hall
    rw [dif_pos (hall.1 rfl)]
    refine finish_eq (fun k => ?_) c
    rw [Option.some_get, lookup_of_fillDefaults hfill, ← hsettled, Nat.zero_add]
    simp [defaultAt?]

/-- The walk through a tree that offers all free slots goes on as the loop does, by induction on
the tree: below a slot the loop begins anew, and beside it the round goes on. -/
theorem walk_eq_midRound (hv : ∀ k : Fin perm.slots.length, filled.lookup k.val = values k)
    {untried : List (Fin perm.slots.length)} (hu : untried ⊆ free perm.slots values)
    (ht : t.Offers ((free perm.slots values).map Fin.val) (untried.map Fin.val))
    {failed : Option (Failure C τ)} (hf : failed = none → free perm.slots values = untried) :
    perm.walk t failed filled c = midRound perm.seed values c failed untried hu := by
  induction t generalizing filled values untried failed c with
  | none =>
    obtain rfl : untried = [] := List.map_eq_nil_iff.1 ht
    cases failed with
    | some f => exact walk_none_some c hv f
    | none =>
      rw [midRound, loop_of_nil _ _ (hf rfl)]
      refine finish_eq (fun k => ?_) c
      rw [Option.some_get, settled_eq_of_free_eq_nil (hf rfl), hv]
  | slot i rest others ihr iho =>
    obtain ⟨more, hmore, hr, ho⟩ := ht
    obtain ⟨k, untried, rfl, rfl, rfl⟩ := List.map_eq_cons_iff.1 hmore
    have hk : perm.slots[k.val]? = some perm.slots[k] := List.getElem?_eq_getElem k.isLt
    rw [walk, hk, midRound, round, LawfulMonad.bind_assoc]
    refine congrArg (perm.slots[k].parser c >>= ·) (funext fun r => ?_)
    cases r with
    | ok v next =>
      have hfree : ((free perm.slots values).map Fin.val).erase k.val =
          (free perm.slots (Function.update values k (some v))).map Fin.val := by
        rw [free_update, List.map_erase Fin.val_injective]
      rw [hfree] at hr
      have hv' (i : Fin perm.slots.length) :
          ((k.val, v) :: filled).lookup i.val = Function.update values k (some v) i := by
        by_cases hi : i = k
        · subst hi
          simp
        · have hne : i.val ≠ k.val := fun h => hi (Fin.ext h)
          rw [List.lookup_cons, beq_false_of_ne hne, Function.update_of_ne hi, hv]
      rw [pure_bind, afterRound, ← midRound_eq_loop perm.seed next rfl]
      exact ihr next hv' (List.Subset.refl _) hr fun _ => rfl
    | fail f =>
      dsimp only
      by_cases hc : f.consumedSince c = true
      · rw [if_pos hc, if_pos hc, pure_bind, afterRound]
      · rw [if_neg hc, if_neg hc]
        have hothers : perm.walk others (some (f.after failed)) filled c =
            midRound perm.seed values c (some (f.after failed)) untried (List.cons_subset.1 hu).2 :=
          iho c hv _ ho nofun
        rw [hothers]
        cases untried with
        | nil =>
          rw [pure_bind]
          rfl
        | cons => rfl

end Agreement

section Main

variable [MonadRun m] [LawfulMonad m] [Cursor C τ] [DecidableEq τ]

theorem walk_all (seed : α) (slots : List (Slot m C τ α β)) (c : C) :
    walk ⟨seed, slots, .all slots.length⟩ (.all slots.length) none [] c =
      loop slots seed (fun _ => none) c := by
  have hfree : (free slots fun _ => none).map Fin.val = (List.range slots.length).reverse := by
    simp [free]
  have hoffers := Orders.offers_all slots.length
  rw [← hfree] at hoffers
  rw [← midRound_eq_loop seed c rfl]
  exact walk_eq_midRound c (fun _ => rfl) (List.Subset.refl _) hoffers fun _ => rfl

end Main

def letterSlots (letters : List (Char × Option Char)) :
    List (Slot (Run Unit) (TokenCursor Char) Char (List Char) Char) :=
  letters.map fun l => ⟨Parser.token l.1, l.2, fun acc c => acc ++ [c]⟩

end Descent.Permutation
