import Descent.Proofs.Likeness.Alternatives
import Descent.Proofs.Permutation.Complete

/-! Permutations are alike when their slots are. Both runs fill the same slots in the same order,
and since the tree of orders is complete, each of them has a value for every slot in the end. -/
namespace Descent.Likeness

variable {σ σ' C C' τ α β γ δ : Type} [Cursor C τ] [Cursor C' τ] [Advance (Run σ) C]
  [Advance (Run σ') C'] [DecidableEq τ] (L : Likeness σ σ' C C' τ) (V : α → β → Prop)
  (A : γ → δ → Prop)

/-- Slots are alike when their parsers are, when both or neither have a default, and when they
combine values that belong together. -/
structure SlotsAlike (s : Slot (Run σ) C τ γ α) (s' : Slot (Run σ') C' τ δ β) : Prop where
  parser : L.Alike V s.parser s'.parser
  default : Option.Rel V s.default? s'.default?
  combine : ∀ a b v w, A a b → V v w → A (s.combine a v) (s'.combine b w)

def FilledAlike : Filled α → Filled β → Prop :=
  List.Forall₂ fun x y => x.1 = y.1 ∧ V x.2 y.2

variable {L V A} {filled : Filled α} {filled' : Filled β} {slots : List (Slot (Run σ) C τ γ α)}
  {slots' : List (Slot (Run σ') C' τ δ β)}

theorem lookup_alike (h : FilledAlike V filled filled') (i : Nat) :
    Option.Rel V (filled.lookup i) (filled'.lookup i) := by
  induction h with
  | nil => exact .none
  | @cons x y _ _ hxy _ ih =>
    rw [List.lookup_cons, List.lookup_cons, hxy.1]
    cases i == y.1 with
    | true => exact .some hxy.2
    | false => exact ih

theorem slots_get (h : List.Forall₂ (L.SlotsAlike V A) slots slots') {i : Nat}
    (hi : i < slots'.length) :
    ∃ s s', slots[i]? = some s ∧ slots'[i]? = some s' ∧ L.SlotsAlike V A s s' := by
  have hlen := h.length_eq
  exact ⟨slots[i], slots'[i], List.getElem?_eq_getElem _, List.getElem?_eq_getElem hi,
    h.get (by omega) hi⟩

theorem fillDefaults_alike (h : List.Forall₂ (L.SlotsAlike V A) slots slots')
    (hf : FilledAlike V filled filled') (i : Nat) :
    Option.Rel (FilledAlike V) (Permutation.fillDefaults filled i slots)
      (Permutation.fillDefaults filled' i slots') := by
  induction h generalizing filled filled' i with
  | nil => exact .some hf
  | @cons s s' _ _ hs _ ih =>
    have hi := lookup_alike hf i
    have hd := hs.default
    unfold Permutation.fillDefaults
    generalize filled.lookup i = o at hi ⊢
    generalize filled'.lookup i = o' at hi ⊢
    cases hi with
    | some => exact ih hf (i + 1)
    | none =>
      dsimp only
      generalize s.default? = d at hd ⊢
      generalize s'.default? = d' at hd ⊢
      cases hd with
      | none => exact .none
      | some hv => exact ih (.cons ⟨rfl, hv⟩ hf) (i + 1)

/-- With a value for every slot there is one for the whole. -/
theorem inStep_assemble (h : List.Forall₂ (L.SlotsAlike V A) slots slots')
    (hf : FilledAlike V filled filled') {i : Nat}
    (hall : ∀ k, i ≤ k → k < i + slots'.length → (filled'.lookup k).isSome) {a : γ} {b : δ}
    (ha : A a b) : InStep L.source A (Permutation.assemble filled i slots a)
      (Permutation.assemble filled' i slots' b) := by
  induction h generalizing i a b with
  | nil => exact .pure ha
  | @cons s s' _ more' hs _ ih =>
    have hi := lookup_alike hf i
    have hsome := hall i (Nat.le_refl i) (by rw [List.length_cons]; omega)
    unfold Permutation.assemble
    generalize filled.lookup i = o at hi ⊢
    generalize filled'.lookup i = o' at hi hsome ⊢
    cases hi with
    | none => cases hsome
    | some hv =>
      refine ih (fun k hk hlt => hall k (by omega) ?_) (hs.combine _ _ _ _ ha hv)
      rw [List.length_cons]
      omega

variable {perm : Permutation (Run σ) C τ γ α} {perm' : Permutation (Run σ') C' τ δ β}

theorem inStep_finish (h : List.Forall₂ (L.SlotsAlike V A) perm.slots perm'.slots)
    (ha : A perm.seed perm'.seed) (hf : FilledAlike V filled filled')
    (hall : ∀ k < perm'.slots.length, (filled'.lookup k).isSome) {c : C} {c' : C'}
    (hc : L.cursor c c') :
    InStep L.source (L.Replies A) (perm.finish filled c) (perm'.finish filled' c') := by
  refine (inStep_assemble h hf (fun k _ hk => hall k (by omega)) ha).bind ?_
  exact fun _ _ hv => .pure (.ok hv hc)

/-- A walk through a complete tree of orders, by induction on the tree: below a slot with the slot
filled, and beside it with a failure more. -/
theorem inStep_walk (h : List.Forall₂ (L.SlotsAlike V A) perm.slots perm'.slots)
    (ha : A perm.seed perm'.seed) (orders : Orders) {o : Option (Failure C τ)}
    {o' : Option (Failure C' τ)} (ho : Option.Rel L.Failures o o')
    (hf : FilledAlike V filled filled')
    (hcomplete : orders.Completes perm'.slots.length (filled'.map Prod.fst))
    (hend : orders = .none → o' = none → ∀ k < perm'.slots.length, k ∈ filled'.map Prod.fst)
    {c : C} {c' : C'} (hc : L.cursor c c') :
    InStep L.source (L.Replies A) (perm.walk orders o filled c)
      (perm'.walk orders o' filled' c') := by
  induction orders generalizing o o' filled filled' c c' with
  | none =>
    cases ho with
    | none =>
      refine inStep_finish h ha hf (fun k hk => List.lookup_isSome_iff.2 ?_) hc
      obtain ⟨x, hx, rfl⟩ := List.mem_map.1 (hend rfl rfl k hk)
      exact ⟨x, hx, beq_self_eq_true _⟩
    | some hg =>
      have hd := fillDefaults_alike h hf 0
      unfold Permutation.walk
      generalize Permutation.fillDefaults filled 0 perm.slots = d at hd ⊢
      generalize hd' : Permutation.fillDefaults filled' 0 perm'.slots = d' at hd ⊢
      cases hd with
      | none => exact .pure (.fail hg)
      | some hff =>
        refine inStep_finish h ha hff (fun k hk => ?_) hc
        exact Permutation.lookup_fillDefaults hd' hk
  | slot i rest others ihr iho =>
    obtain ⟨hi, hrest, hcr, hco⟩ := hcomplete
    obtain ⟨s, s', hs, hs', hss⟩ := slots_get h hi
    unfold Permutation.walk
    rw [hs, hs']
    refine (hss.parser hc).bind ?_
    intro _ _ hr
    cases hr with
    | @ok v w _ _ hv hd =>
      have hff : FilledAlike V ((i, v) :: filled) ((i, w) :: filled') := .cons ⟨rfl, hv⟩ hf
      exact ihr .none hff hcr (fun he _ => hrest he) hd
    | fail hg =>
      apply inStep_commit hg hc
      exact iho (.some (after_failures hg ho)) hf hco nofun hc

theorem alike_permutation (h : List.Forall₂ (L.SlotsAlike V A) slots slots') {a : γ} {b : δ}
    (ha : A a b) : L.Alike A (Permutation.parser (.ofSlots a slots))
      (Permutation.parser (.ofSlots b slots')) := by
  intro c c' hc
  obtain ⟨hcomplete, hend⟩ := Orders.all_completes slots'.length
  rw [Permutation.ofSlots_eq, Permutation.ofSlots_eq, h.length_eq]
  exact inStep_walk h ha _ .none .nil hcomplete (fun he _ => hend he) hc

end Descent.Likeness
