import Descent.Proofs.Permutation.Offers
import Mathlib.Algebra.BigOperators.Intervals
import Mathlib.Algebra.BigOperators.Ring.Finset
import Mathlib.Data.List.Permutation
import Mathlib.Data.Nat.Factorial.Basic

/-! The tree of all orders as what can be read off its paths: from the root to the leaves it has
every order of the slots once, and at each node on the way it goes on with the slots that have not
come yet. The shape of a tree that offers some slots depends on these slots alone, so all of this
is said of such trees first. -/
namespace Descent.Orders

open scoped Nat

variable {i : Nat} {free untried p : List Nat} {s t : Orders}

section Paths

def choices : Orders → List Nat
  | none => []
  | slot i _ others => i :: choices others

/-- The nodes of a tree, each with the slots on the path to it, its own the last, and what can come
after it. -/
def nodes : Orders → List (List Nat × Orders)
  | none => []
  | slot i rest others =>
    (([], rest) :: nodes rest).map (fun place => (i :: place.1, place.2)) ++ nodes others

/-- The root, with no slot on the path to it, and the nodes. -/
def places (t : Orders) : List (List Nat × Orders) := ([], t) :: nodes t

def paths (t : Orders) : List (List Nat) := ((places t).filter (·.2 = none)).map (·.1)

theorem mem_paths : p ∈ paths t ↔ (p, none) ∈ places t := by
  simp [paths]

theorem choices_eq_nil : choices t = [] ↔ t = none := by
  cases t <;> simp [choices]

theorem length_nodes (t : Orders) : (nodes t).length = size t := by
  induction t with
  | none => rfl
  | slot i rest others ihr iho =>
    simp only [nodes, size, List.length_append, List.length_map, List.length_cons, ihr, iho]
    omega

/-- Below a slot there are the node of that slot and those below it, and beside it there are
others. -/
theorem mem_nodes_slot {rest others : Orders} : (p, s) ∈ nodes (slot i rest others) ↔
    (∃ q, (q, s) ∈ places rest ∧ p = i :: q) ∨ (p, s) ∈ nodes others := by
  rw [nodes, List.mem_append, List.mem_map]
  refine or_congr_left ⟨?_, ?_⟩
  · rintro ⟨⟨q, u⟩, hq, h⟩
    cases h
    exact ⟨q, hq, rfl⟩
  · rintro ⟨q, hq, rfl⟩
    exact ⟨(q, s), hq, rfl⟩

theorem nil_notMem_nodes (t s : Orders) : ([], s) ∉ nodes t := by
  induction t with
  | none => exact List.not_mem_nil
  | slot i rest others _ iho =>
    intro h
    obtain ⟨q, -, ⟨⟩⟩ | h := mem_nodes_slot.1 h
    exact iho h

/-- The root has a path of its own. -/
theorem nodup_places (h : ((nodes t).map Prod.fst).Nodup) : ((places t).map Prod.fst).Nodup := by
  refine List.nodup_cons.2 ⟨fun hnil => ?_, h⟩
  obtain ⟨⟨p, s⟩, hp, rfl⟩ := List.mem_map.1 hnil
  exact nil_notMem_nodes t s hp

theorem map_fst_nodes_slot (i : Nat) (rest others : Orders) :
    (nodes (slot i rest others)).map Prod.fst =
      ((places rest).map Prod.fst).map (i :: ·) ++ (nodes others).map Prod.fst := by
  rw [nodes, List.map_append, List.map_map, List.map_map]
  rfl

end Paths

namespace Offers

theorem choices_eq (h : Offers free untried t) : choices t = untried := by
  induction t generalizing untried with
  | none => exact h.symm
  | slot i rest others _ iho =>
    obtain ⟨more, rfl, -, ho⟩ := h
    rw [choices, iho ho]

/-- Behind a node the slots on the path to it are free no longer. -/
theorem of_mem_nodes (h : Offers free untried t) (hp : (p, s) ∈ nodes t) :
    Offers (free.diff p) (free.diff p) s := by
  induction t generalizing free untried p with
  | none => cases hp
  | slot i rest others ihr iho =>
    obtain ⟨more, rfl, hr, ho⟩ := h
    obtain ⟨q, hq, rfl⟩ | hp := mem_nodes_slot.1 hp
    · rw [List.diff_cons]
      obtain hq | hq := List.mem_cons.1 hq
      · cases hq
        exact hr
      · exact ihr hr hq
    · exact iho ho hp

theorem of_mem_places (h : Offers free free t) (hp : (p, s) ∈ places t) :
    Offers (free.diff p) (free.diff p) s := by
  obtain hp | hp := List.mem_cons.1 hp
  · cases hp
    exact h
  · exact h.of_mem_nodes hp

theorem exists_cons_of_mem_nodes (h : Offers free untried t) (hp : (p, s) ∈ nodes t) :
    ∃ i ∈ untried, ∃ q, p = i :: q := by
  induction t generalizing untried with
  | none => cases hp
  | slot i rest others _ iho =>
    obtain ⟨more, rfl, -, ho⟩ := h
    obtain ⟨q, -, rfl⟩ | hp := mem_nodes_slot.1 hp
    · exact ⟨i, List.mem_cons_self, q, rfl⟩
    · obtain ⟨j, hj, hq⟩ := iho ho hp
      exact ⟨j, List.mem_cons_of_mem i hj, hq⟩

/-- An order of the free slots is one of them and then an order of the others. -/
theorem leaf_mem_places_iff (h : Offers free free t)
    (hnodes : ∀ p, (p, none) ∈ nodes t ↔ ∃ i ∈ free, ∃ q, q.Perm (free.erase i) ∧ p = i :: q) :
    (p, none) ∈ places t ↔ p.Perm free := by
  rw [places, List.mem_cons, hnodes, Prod.mk.injEq]
  cases p with
  | nil =>
    have hempty : none = t ↔ free = [] := by
      rw [eq_comm, ← choices_eq_nil, h.choices_eq]
    simp [hempty, List.nil_perm]
  | cons i q =>
    rw [List.cons_perm_iff_perm_erase]
    simp

theorem leaf_mem_nodes_iff (h : Offers free untried t) :
    (p, none) ∈ nodes t ↔ ∃ i ∈ untried, ∃ q, q.Perm (free.erase i) ∧ p = i :: q := by
  induction t generalizing free untried p with
  | none =>
    obtain rfl : untried = [] := h
    simp [nodes]
  | slot i rest others ihr iho =>
    obtain ⟨more, rfl, hr, ho⟩ := h
    rw [mem_nodes_slot, iho ho]
    simp only [hr.leaf_mem_places_iff fun _ => ihr hr, List.exists_mem_cons_iff]

/-- The paths from the root to the leaves are the orders of the free slots. -/
theorem mem_paths_iff (h : Offers free free t) : p ∈ paths t ↔ p.Perm free :=
  mem_paths.trans (h.leaf_mem_places_iff fun _ => h.leaf_mem_nodes_iff)

/-- No two nodes have the same path, as no two slots side by side are the same. -/
theorem nodup_nodes (h : Offers free untried t) (hfree : free.Nodup) (hu : untried.Nodup) :
    ((nodes t).map Prod.fst).Nodup := by
  induction t generalizing free untried with
  | none => exact List.nodup_nil
  | slot i rest others ihr iho =>
    obtain ⟨more, rfl, hr, ho⟩ := h
    obtain ⟨hi, hmore⟩ := List.nodup_cons.1 hu
    rw [map_fst_nodes_slot, List.nodup_append]
    -- The paths through `i` differ behind it, and those beside it begin with another slot.
    refine ⟨?_, iho ho hfree hmore, ?_⟩
    · exact (nodup_places (ihr hr (hfree.erase i) (hfree.erase i))).map List.cons_injective
    · intro p hp q hq
      obtain ⟨r, -, rfl⟩ := List.mem_map.1 hp
      obtain ⟨⟨q, u⟩, hmem, rfl⟩ := List.mem_map.1 hq
      obtain ⟨j, hj, q, rfl⟩ := ho.exists_cons_of_mem_nodes hmem
      rintro ⟨⟩
      exact hi hj

theorem nodup_paths (h : Offers free free t) (hfree : free.Nodup) : (paths t).Nodup :=
  (nodup_places (h.nodup_nodes hfree hfree)).sublist (List.filter_sublist.map _)

/-- So the paths are the permutations of the free slots, in some order. -/
theorem paths_perm (h : Offers free free t) (hfree : free.Nodup) :
    (paths t).Perm free.permutations :=
  (List.perm_ext_iff_of_nodup (h.nodup_paths hfree) (List.nodup_permutations free hfree)).2
    fun _ => h.mem_paths_iff.trans List.mem_permutations.symm

end Offers

section Count

def beginnings (n : Nat) : Nat := ∑ k ∈ Finset.Icc 1 n, n ! / (n - k)!

theorem beginnings_eq (n : Nat) :
    beginnings n = ∑ k ∈ Finset.range n, n.descFactorial (k + 1) := by
  rw [beginnings, ← Finset.Ico_add_one_right_eq_Icc, Finset.sum_Ico_eq_sum_range,
    Nat.add_sub_cancel]
  refine Finset.sum_congr rfl fun k hk => ?_
  rw [Nat.add_comm 1 k, Nat.descFactorial_eq_div (Finset.mem_range.1 hk)]

/-- One slot comes first, and after it none of the others or a beginning of theirs. -/
theorem beginnings_eq_mul (n : Nat) : beginnings n = n * (1 + beginnings (n - 1)) := by
  cases n with
  | zero => rfl
  | succ n =>
    rw [Nat.add_sub_cancel, beginnings_eq, beginnings_eq]
    simp only [Nat.succ_descFactorial_succ]
    rw [← Finset.mul_sum, Finset.sum_range_succ', Nat.descFactorial_zero, Nat.add_comm 1]

/-- A node for each way to begin an order: with one of the slots that are still to be tried, and
then with the other free slots. -/
theorem Offers.size_eq (h : Offers free untried t) (hu : untried ⊆ free) :
    size t = untried.length * (1 + beginnings (free.length - 1)) := by
  induction t generalizing free untried with
  | none =>
    obtain rfl : untried = [] := h
    simp [size]
  | slot i rest others ihr iho =>
    obtain ⟨more, rfl, hr, ho⟩ := h
    obtain ⟨hi, hmore⟩ := List.cons_subset.1 hu
    have hrest : size rest = beginnings (free.length - 1) := by
      rw [ihr hr (List.Subset.refl _), List.length_erase_of_mem hi, ← beginnings_eq_mul]
    rw [size, hrest, iho ho hmore, List.length_cons, Nat.succ_mul]
    omega

end Count

theorem all_eq_foldl (n : Nat) : all n = (List.range n).foldl (fun t i => insert i t) none := by
  induction n with
  | zero => rfl
  | succ n ih => rw [all, ih, List.range_succ, List.foldl_concat]

theorem size_all (n : Nat) : size (all n) = beginnings n := by
  rw [(offers_all n).size_eq (List.Subset.refl _), List.length_reverse, List.length_range,
    ← beginnings_eq_mul]

/-- Each order of `n` slots is on one path of the tree that is made by putting them in one after the
other. There are `n!` paths. At the root and at every node the slots that come next are those not
on the path there, the last one first, and for each `k` up to `n` there is a node for every choice
of `k` slots in a row. -/
theorem every_order_once (n : Nat) :
    all n = (List.range n).foldl (fun t i => insert i t) none ∧
      (∀ p, p ∈ (all n).paths ↔ p.Perm (List.range n)) ∧
      (all n).paths.Nodup ∧ (all n).paths.length = n ! ∧
      (∀ p t, (p, t) ∈ (all n).places →
        t.choices.Pairwise (· > ·) ∧ ∀ i, i ∈ t.choices ↔ i < n ∧ i ∉ p) ∧
      (all n).nodes.length = (all n).size ∧
      (all n).size = ∑ k ∈ Finset.Icc 1 n, n ! / (n - k)! := by
  have hoffers := offers_all n
  have hfree : (List.range n).reverse.Nodup := List.nodup_reverse.2 List.nodup_range
  have hdesc : (List.range n).reverse.Pairwise (· > ·) :=
    List.pairwise_reverse.2 List.pairwise_lt_range
  refine ⟨all_eq_foldl n, fun p => ?_, hoffers.nodup_paths hfree, ?_, fun p t hp => ?_,
    length_nodes _, size_all n⟩
  · rw [hoffers.mem_paths_iff]
    exact ⟨(·.trans (List.reverse_perm _)), (·.trans (List.reverse_perm _).symm)⟩
  · rw [(hoffers.paths_perm hfree).length_eq, List.length_permutations, List.length_reverse,
      List.length_range]
  · rw [(hoffers.of_mem_places hp).choices_eq]
    refine ⟨hdesc.sublist (List.diff_sublist _ _), fun i => ?_⟩
    rw [hfree.mem_sdiff_iff, List.mem_reverse, List.mem_range]

/-- With three slots the first and the last are left after the second, and there are fifteen
nodes. -/
theorem every_order_once_three :
    ∃ t, ([1], t) ∈ (all 3).places ∧ (t.choices.Pairwise (· > ·) ∧
      ∀ i, i ∈ t.choices ↔ i < 3 ∧ i ∉ [1]) ∧ t.choices = [2, 0] ∧ (all 3).size = 3 + 6 + 6 := by
  obtain ⟨-, -, -, -, hchoices, -⟩ := every_order_once 3
  have hplace : ([1], slot 2 (slot 0 none none) (slot 0 (slot 2 none none) none)) ∈
      (all 3).places := by decide
  exact ⟨_, hplace, hchoices _ _ hplace, rfl, rfl⟩

end Descent.Orders
