import Descent.Proofs.Invariant
import Descent.Proofs.Forward
import Mathlib.Data.Set.Basic

/-! Parsers whose answers depend on the cursor alone. What a run reported before, and what a stream
has in its window, is part of the state that a parser is run in. A parser that keeps no memory of
its own has the same answer in each of the states that can come up, and over tokens in memory every
grammar is such a parser. -/
namespace Descent

variable {σ C τ α β : Type}

namespace Parser

variable {S : Set (Journal σ)} {p : Parser (Run σ) C τ α} {q : α → Parser (Run σ) C τ β}
  {c : C} {r s : Reply C τ α} {j k : Journal σ}

/-- In whatever of the states `S` the parser is run from `c`, it answers `r` and leaves one of
them. -/
def Answers (S : Set (Journal σ)) (p : Parser (Run σ) C τ α) (c : C) (r : Reply C τ α) : Prop :=
  ∀ j ∈ S, ∃ k ∈ S, p c j = .ok (r, k)

theorem Answers.eq_of_run (h : Answers S p c r) (hj : j ∈ S) (hp : p c j = .ok (s, k)) :
    r = s ∧ k ∈ S := by
  obtain ⟨l, hl, h⟩ := h j hj
  rw [hp] at h
  cases h
  exact ⟨rfl, hl⟩

theorem Answers.unique (h : Answers S p c r) (h' : Answers S p c s) (hj : j ∈ S) : r = s := by
  obtain ⟨k, _, hk⟩ := h' j hj
  exact (h.eq_of_run hj hk).1

/-- What the parser answers in one of the states it answers in all of them. -/
def Uniform (S : Set (Journal σ)) (p : Parser (Run σ) C τ α) : Prop :=
  ∀ ⦃c : C⦄ ⦃j k : Journal σ⦄ ⦃r : Reply C τ α⦄, j ∈ S → p c j = .ok (r, k) → Answers S p c r

theorem Uniform.mem (hp : Uniform S p) (hj : j ∈ S) (h : p c j = .ok (r, k)) : k ∈ S :=
  ((hp hj h).eq_of_run hj h).2

end Parser

def Run.Uniform (S : Set (Journal σ)) (x : Run σ α) : Prop :=
  ∀ ⦃j k : Journal σ⦄ ⦃a : α⦄, j ∈ S → x j = .ok (a, k) → ∀ i ∈ S, ∃ l ∈ S, x i = .ok (a, l)

namespace Run.Uniform

variable {S : Set (Journal σ)} {x : Run σ α} {f : α → Run σ β}

theorem pure (a : α) : Uniform S (Pure.pure a : Run σ α) := by
  rintro _ _ _ - ⟨⟩ i hi
  exact ⟨i, hi, rfl⟩

theorem bind (hx : Uniform S x) (hf : ∀ a, Uniform S (f a)) : Uniform S (x >>= f) := by
  intro j k b hj h i hi
  obtain ⟨a, j', ha, hb⟩ := Run.bind_eq_ok.1 h
  obtain ⟨i', hi', ha'⟩ := hx hj ha i hi
  obtain ⟨l, hl, ha''⟩ := hx hj ha j hj
  cases ha.symm.trans ha''
  obtain ⟨l', hl', hb'⟩ := hf a hl hb i' hi'
  exact ⟨l', hl', (Run.bind_of_ok ha').trans hb'⟩

end Run.Uniform

namespace Grammar

open TokenCursor

variable {τ : Type} [DecidableEq τ] [Token τ]

/-- Over tokens in memory the answer of a grammar depends on nothing but its cursor: two runs from
one cursor are alike, whatever was reported before. -/
theorem uniform_run (rules : String → Grammar τ) (bound : Nat) (g : Grammar τ) :
    Parser.Uniform Set.univ (run rules bound g : Parser (Run Unit) (TokenCursor τ) τ Value) := by
  intro c j k r _ h i _
  have halike : (forwardOnly Unit c).likeness.Alike (Value.Alike id) (run rules bound g)
      (run rules bound g) :=
    Likeness.alike_run (fun name => (rules name).alike_id) g.alike_id
      (fun _ name => forwardOnly_admits c _ (rules name)) (forwardOnly_admits c _ g)
  have hmatched := halike ⟨rfl, reaches_refl c⟩ (show j.source = i.source from rfl)
  rw [InStepFrom, h] at hmatched
  generalize (run rules bound g c : Run Unit _) i = x at hmatched ⊢
  cases hmatched with
  | @answered _ a ha =>
    obtain ⟨s, l⟩ := a
    refine ⟨l, Set.mem_univ l, ?_⟩
    obtain ⟨hreplies, -⟩ := ha
    cases hreplies with
    | ok hv hd => rw [hv, Value.mapPosition_id, hd.1]
    | @fail f f' hf =>
      obtain ⟨e, d⟩ := f
      obtain ⟨e', d'⟩ := f'
      obtain ⟨⟨rfl, -⟩, rfl, -⟩ := hf
      rfl

end Grammar

end Descent
