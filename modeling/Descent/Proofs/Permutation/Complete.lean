import Descent.Permutation.Basic

/-! No path through the orders of a permutation ends before all slots are filled, so a permutation
that runs out of branches has a value for every slot. So has one whose defaults have been filled
in. -/
namespace Descent

namespace Orders

/-- All slots of the tree are below `n`, and where nothing comes after a slot, all slots below `n`
are in `done` or on the path to it. -/
def Completes (n : Nat) : (done : List Nat) → Orders → Prop
  | _, none => True
  | done, slot i rest others =>
    i < n ∧ (rest = none → ∀ k < n, k ∈ i :: done) ∧ Completes n (i :: done) rest ∧
      Completes n done others

/-- A tree stays complete with one more slot, if that slot is filled before it. -/
theorem Completes.filled {n : Nat} {t : Orders} {done done' : List Nat} (h : Completes n done t)
    (hd : done ⊆ done') (hn : n ∈ done') : Completes (n + 1) done' t := by
  induction t generalizing done done' with
  | none => trivial
  | slot i rest others ihr iho =>
    obtain ⟨hi, hend, hr, ho⟩ := h
    refine ⟨by omega, fun he k hk => ?_, ihr hr (List.cons_subset_cons i hd) (.tail i hn),
      iho ho hd hn⟩
    by_cases hkn : k = n
    · rw [hkn]
      exact .tail i hn
    · exact List.cons_subset_cons i hd (hend he k (by omega))

theorem Completes.insertBelow {n : Nat} {t : Orders} {done : List Nat} (h : Completes n done t) :
    Completes (n + 1) done (insertBelow n t) := by
  induction t generalizing done with
  | none => trivial
  | slot i rest others ihr iho =>
    obtain ⟨hi, hend, hr, ho⟩ := h
    refine ⟨by omega, nofun, ⟨by omega, fun he k hk => ?_, ?_, ihr hr⟩, iho ho⟩
    · by_cases hkn : k = n
      · rw [hkn]
        exact .head _
      · exact .tail n (hend he k (by omega))
    · exact hr.filled (List.subset_cons_self _ _) (.head _)

/-- The tree of all orders of `n` slots is complete, and it is empty only if there are none. -/
theorem all_completes (n : Nat) :
    Completes n [] (all n) ∧ (all n = none → ∀ k < n, k ∈ ([] : List Nat)) := by
  induction n with
  | zero => exact ⟨trivial, fun _ k hk => absurd hk (Nat.not_lt_zero k)⟩
  | succ n ih =>
    obtain ⟨hc, hend⟩ := ih
    refine ⟨⟨by omega, fun he k hk => ?_, hc.filled (List.nil_subset _) (.head _),
      hc.insertBelow⟩, nofun⟩
    by_cases hkn : k = n
    · rw [hkn]
      exact .head _
    · exact .tail n (hend he k (by omega))

end Orders

namespace Permutation

variable {m : Type → Type} {C τ α β : Type}

theorem foldl_add (slots : List (Slot m C τ α β)) (perm : Permutation m C τ α β)
    (h : perm.orders = .all perm.slots.length) :
    slots.foldl add perm =
      ⟨perm.seed, perm.slots ++ slots, .all (perm.slots.length + slots.length)⟩ := by
  induction slots generalizing perm with
  | nil => rw [List.foldl_nil, List.append_nil, List.length_nil, Nat.add_zero, ← h]
  | cons s slots ih =>
    rw [List.foldl_cons, ih (perm.add s)]
    · simp [add, Nat.add_assoc, Nat.add_comm 1]
    · simp [add, h, Orders.all]

/-- The slots of a permutation in their order, and all the orders of their numbers. -/
theorem ofSlots_eq (seed : α) (slots : List (Slot m C τ α β)) :
    ofSlots seed slots = ⟨seed, slots, .all slots.length⟩ := by
  have h := foldl_add slots (empty seed) rfl
  simpa [empty, ofSlots] using h

/-- What is reported of a permutation when it is built depends on the number of its slots alone. -/
theorem built_ofSlots (seed : α) (slots : List (Slot m C τ α β)) :
    (ofSlots seed slots).built = .permutationBuilt slots.length (Orders.all slots.length).size := by
  rw [ofSlots_eq]
  rfl

section Defaults

variable {slots : List (Slot m C τ α β)} {filled filled' : Filled β} {i : Nat}

def defaultAt? (i : Nat) (slots : List (Slot m C τ α β)) (k : Nat) : Option β :=
  if i ≤ k then slots[k - i]?.bind (·.default?) else none

theorem defaultAt?_cons_of_ne {s : Slot m C τ α β} {k : Nat} (h : k ≠ i) :
    defaultAt? i (s :: slots) k = defaultAt? (i + 1) slots k := by
  unfold defaultAt?
  by_cases hik : i ≤ k
  · obtain ⟨d, rfl⟩ : ∃ d, k = i + 1 + d := ⟨k - (i + 1), by omega⟩
    have hd : i + 1 + d - i = d + 1 := by omega
    rw [if_pos hik, if_pos (Nat.le_add_right _ d), hd, Nat.add_sub_cancel_left]
    rfl
  · rw [if_neg hik, if_neg (by omega)]

/-- Defaults are added where there is no value, and no value is changed. -/
theorem lookup_of_fillDefaults (h : fillDefaults filled i slots = some filled') (k : Nat) :
    filled'.lookup k = (filled.lookup k).or (defaultAt? i slots k) := by
  induction slots generalizing filled i with
  | nil =>
    cases h
    simp [defaultAt?]
  | cons s slots ih =>
    unfold fillDefaults at h
    cases hi : filled.lookup i with
    | some v =>
      rw [hi] at h
      rw [ih h]
      by_cases hk : k = i
      · subst hk
        rw [hi]
        rfl
      · rw [defaultAt?_cons_of_ne hk]
    | none =>
      rw [hi] at h
      obtain ⟨v, hd, h⟩ := Option.bind_eq_some_iff.1 h
      rw [ih h, List.lookup_cons]
      by_cases hk : k = i
      · subst hk
        simp [hi, hd, defaultAt?]
      · rw [beq_false_of_ne hk, defaultAt?_cons_of_ne hk]

/-- Every slot gets a value unless one has neither a value nor a default. -/
theorem isSome_fillDefaults : (fillDefaults filled i slots).isSome ↔
    ∀ k : Fin slots.length, ((filled.lookup (i + k)).or (slots.get k).default?).isSome := by
  induction slots generalizing filled i with
  | nil => exact ⟨fun _ k => k.elim0, fun _ => rfl⟩
  | cons s slots ih =>
    have hshift (k : Fin slots.length) : i + (k.succ : Fin (slots.length + 1)).val = i + 1 + k := by
      rw [Fin.val_succ, Nat.add_assoc, Nat.add_comm 1]
    refine Iff.trans ?_ (Fin.forall_fin_succ (n := slots.length)).symm
    simp only [hshift]
    change _ ↔ ((filled.lookup i).or s.default?).isSome ∧
      ∀ k : Fin slots.length, ((filled.lookup (i + 1 + k)).or (slots.get k).default?).isSome
    unfold fillDefaults
    cases hi : filled.lookup i with
    | some v => simp [ih]
    | none =>
      cases hd : s.default? with
      | none => simp
      | some v =>
        have hlookup (k : Fin slots.length) :
            ((i, v) :: filled).lookup (i + 1 + k) = filled.lookup (i + 1 + k) := by
          rw [List.lookup_cons, beq_false_of_ne (by omega)]
        simp [ih, hlookup]

/-- With the defaults there is a value for every slot. -/
theorem lookup_fillDefaults (h : fillDefaults filled 0 slots = some filled') {k : Nat}
    (hk : k < slots.length) : (filled'.lookup k).isSome := by
  have hvalue := isSome_fillDefaults.1 (Option.isSome_of_eq_some h) ⟨k, hk⟩
  rw [Nat.zero_add] at hvalue
  rw [lookup_of_fillDefaults h, defaultAt?, if_pos (Nat.zero_le k), Nat.sub_zero,
    List.getElem?_eq_getElem hk]
  exact hvalue

end Defaults

end Permutation

end Descent
