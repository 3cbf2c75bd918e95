import Descent.Permutation.Orders

/-! What a tree of orders offers at its nodes. In the tree of all orders the slots that can come
next are always those that have not come before, each once, the last one first. -/
namespace Descent.Orders

/-- Side by side the tree has the slots of `untried`, and below each of them it offers what is left
of `free` without it. -/
def Offers : (free untried : List Nat) → Orders → Prop
  | _, untried, none => untried = []
  | free, untried, slot i rest others =>
    ∃ more, untried = i :: more ∧ Offers (free.erase i) (free.erase i) rest ∧
      Offers free more others

variable {n : Nat} {free untried : List Nat} {t : Orders}

/-- A new slot goes behind each slot of the tree: there it comes first, and after the others it
comes later. -/
theorem Offers.insertBelow (h : Offers free untried t) (hu : untried ⊆ free)
    (hn : n ∉ free) : Offers (n :: free) untried (insertBelow n t) := by
  induction t generalizing free untried with
  | none => exact h
  | slot i rest others ihr iho =>
    obtain ⟨more, rfl, hr, ho⟩ := h
    obtain ⟨hi, hmore⟩ := List.cons_subset.1 hu
    have hne : n ≠ i := by
      rintro rfl
      exact hn hi
    have hfree : (n :: free).erase i = n :: free.erase i := by
      rw [List.erase_cons_tail (by simpa using hne)]
    have hrest : n ∉ free.erase i := fun h => hn (List.mem_of_mem_erase h)
    refine ⟨more, rfl, ?_, iho ho hmore hn⟩
    rw [hfree]
    refine ⟨free.erase i, rfl, ?_, ihr hr (List.Subset.refl _) hrest⟩
    rwa [List.erase_cons_head]

theorem Offers.insert (h : Offers free free t) (hn : n ∉ free) :
    Offers (n :: free) (n :: free) (insert n t) := by
  refine ⟨free, rfl, ?_, h.insertBelow (List.Subset.refl _) hn⟩
  rwa [List.erase_cons_head]

/-- The tree of all orders of `n` slots offers them all, from the last down to the first. -/
theorem offers_all (n : Nat) :
    Offers (List.range n).reverse (List.range n).reverse (all n) := by
  induction n with
  | zero => rfl
  | succ n ih =>
    rw [List.range_succ, List.reverse_concat]
    exact ih.insert (by simp)

end Descent.Orders
