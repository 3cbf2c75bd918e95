import Descent.Run

/-! Runs compared in pairs. Two runs are in step when they end alike from all sources that belong
together: both with an answer, or both with their bound spent. No other halt is in step with
anything, so a run that is in step with some run never moves past the end of its input and never
misses a slot. Reports are not compared. -/
namespace Descent

variable {σ σ' α β γ δ : Type} {S : σ → σ' → Prop}

/-- Two ends of runs: both are answers, and `R` relates them, or both bounds are spent. -/
inductive Matched (R : α → β → Prop) : Outcome α → Outcome β → Prop where
  | answered {a : α} {b : β} (h : R a b) : Matched R (.ok a) (.ok b)
  | spent : Matched R (.error .boundSpent) (.error .boundSpent)

theorem Matched.mono {R R' : α → β → Prop} {x : Outcome α} {y : Outcome β} (h : Matched R x y)
    (hr : ∀ a b, R a b → R' a b) : Matched R' x y := by
  cases h with
  | answered h => exact .answered (hr _ _ h)
  | spent => exact .spent

/-- From the journals `j` and `k` the runs end alike, with answers that `R` relates, and leave
sources that `S` relates. -/
def InStepFrom (S : σ → σ' → Prop) (R : α → β → Prop) (x : Run σ α) (y : Run σ' β)
    (j : Journal σ) (k : Journal σ') : Prop :=
  Matched (fun a b => R a.1 b.1 ∧ S a.2.source b.2.source) (x j) (y k)

/-- From all sources that `S` relates the runs end alike. -/
def InStep (S : σ → σ' → Prop) (R : α → β → Prop) (x : Run σ α) (y : Run σ' β) : Prop :=
  ∀ ⦃j : Journal σ⦄ ⦃k : Journal σ'⦄, S j.source k.source → InStepFrom S R x y j k

variable {R : α → β → Prop} {T : γ → δ → Prop} {x : Run σ α} {y : Run σ' β}

namespace InStepFrom

variable {j : Journal σ} {k : Journal σ'}

theorem pure {a : α} {b : β} (h : R a b) (hs : S j.source k.source) :
    InStepFrom S R (Pure.pure a : Run σ α) (Pure.pure b : Run σ' β) j k :=
  .answered ⟨h, hs⟩

/-- Sequences of runs are in step when their first parts are, and their second parts from where
the first lead. -/
theorem bind {f : α → Run σ γ} {g : β → Run σ' δ} (h : InStepFrom S R x y j k)
    (hk : ∀ a b j' k', y k = .ok (b, k') → R a b → S j'.source k'.source →
      InStepFrom S T (f a) (g b) j' k') :
    InStepFrom S T (x >>= f) (y >>= g) j k := by
  unfold InStepFrom at h
  change Matched _ (x j >>= fun a => f a.1 a.2) (y k >>= fun b => g b.1 b.2)
  generalize x j = u at h ⊢
  generalize hy : y k = v at h ⊢
  cases h with
  | answered h => exact hk _ _ _ _ hy h.1 h.2
  | spent => exact .spent

/-- Two choices by conditions that agree are in step when both branches are. -/
theorem ite {p p' : Prop} [Decidable p] [Decidable p'] {x' : Run σ α} {y' : Run σ' β}
    (hp : p ↔ p') (hx : p' → InStepFrom S R x y j k) (hy : ¬p' → InStepFrom S R x' y' j k) :
    InStepFrom S R (if p then x else x') (if p' then y else y') j k := by
  by_cases h : p'
  · rw [if_pos h, if_pos (hp.2 h)]
    exact hx h
  · rw [if_neg h, if_neg fun hp' => h (hp.1 hp')]
    exact hy h

theorem mono {R' : α → β → Prop} (h : InStepFrom S R x y j k) (hr : ∀ a b, R a b → R' a b) :
    InStepFrom S R' x y j k :=
  Matched.mono h fun _ _ h => ⟨hr _ _ h.1, h.2⟩

end InStepFrom

namespace InStep

theorem pure {a : α} {b : β} (h : R a b) :
    InStep S R (Pure.pure a : Run σ α) (Pure.pure b : Run σ' β) :=
  fun _ _ hs => .pure h hs

/-- Sequences of runs are in step when their parts are. -/
theorem bind {f : α → Run σ γ} {g : β → Run σ' δ} (h : InStep S R x y)
    (hk : ∀ a b, R a b → InStep S T (f a) (g b)) : InStep S T (x >>= f) (y >>= g) :=
  fun _ _ hs => (h hs).bind fun _ _ _ _ _ hr hs' => hk _ _ hr hs'

theorem spent : InStep S R (MonadRun.halt .boundSpent : Run σ α)
    (MonadRun.halt .boundSpent : Run σ' β) :=
  fun _ _ _ => .spent

theorem report (e e' : Event) : InStep S (fun _ _ => True) (MonadRun.report e : Run σ Unit)
    (MonadRun.report e' : Run σ' Unit) :=
  fun _ _ hs => .answered ⟨trivial, hs⟩

theorem build (supplier : Supplier) (made : List Event) :
    InStep S (fun _ _ => True) (MonadRun.build supplier made : Run σ Unit)
      (MonadRun.build supplier made : Run σ' Unit) := by
  refine fun j k hs => .answered ⟨trivial, ?_⟩
  change S (j.build supplier made).source (k.build supplier made).source
  rwa [Journal.source_build, Journal.source_build]

theorem renew (renewed : Supplier → Bool) :
    InStep S (fun _ _ => True) (MonadRun.renew renewed : Run σ Unit)
      (MonadRun.renew renewed : Run σ' Unit) :=
  fun _ _ hs => .answered ⟨trivial, hs⟩

theorem mono {R' : α → β → Prop} (h : InStep S R x y) (hr : ∀ a b, R a b → R' a b) :
    InStep S R' x y :=
  fun _ _ hs => (h hs).mono hr

theorem ite {p p' : Prop} [Decidable p] [Decidable p'] {x' : Run σ α} {y' : Run σ' β}
    (hp : p ↔ p') (hx : p' → InStep S R x y) (hy : ¬p' → InStep S R x' y') :
    InStep S R (if p then x else x') (if p' then y else y') :=
  fun _ _ hs => .ite hp (fun h => hx h hs) fun h => hy h hs

end InStep

end Descent
