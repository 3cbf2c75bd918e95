import Descent.Proofs.Inversion

/-! Loops that collect values. A round of a loop reads one value and leads to the next round, until
a round ends the loop. What a run of the loop comes to is thus some rounds in turn and the last one
behind them, if the bound leaves room for all of these. -/
namespace Descent.Parser

variable {σ C τ α : Type} {Round : C → Journal σ → α → C → Journal σ → Prop}
  {Last : C → Journal σ → Reply C τ (List α) → Journal σ → Prop} {c d e : C} {v : α} {vs : List α}
  {j k l m : Journal σ}

/-- From the one cursor to the other the values `vs` are read, each in a round. -/
inductive Rounds (Round : C → Journal σ → α → C → Journal σ → Prop) :
    C → Journal σ → List α → C → Journal σ → Prop where
  | nil {c : C} {j : Journal σ} : Rounds Round c j [] c j
  | cons {c d e : C} {v : α} {vs : List α} {j k l : Journal σ} (hv : Round c j v d k)
      (h : Rounds Round d k vs e l) : Rounds Round c j (v :: vs) e l

theorem rounds_nil_iff : Rounds Round c j [] e m ↔ e = c ∧ m = j := by
  constructor
  · rintro ⟨⟩
    exact ⟨rfl, rfl⟩
  · rintro ⟨rfl, rfl⟩
    exact .nil

theorem rounds_cons_iff : Rounds Round c j (v :: vs) e m ↔
    ∃ d k, Round c j v d k ∧ Rounds Round d k vs e m := by
  constructor
  · rintro (_ | ⟨hv, h⟩)
    exact ⟨_, _, hv, h⟩
  · rintro ⟨d, k, hv, h⟩
    exact .cons hv h

/-- What a loop comes to whose rounds are its last or read one value. -/
theorem loop_ends_iff {loop : Nat → Parser (Run σ) C τ (List α)}
    (hzero : ∀ c j r m, loop 0 c j ≠ .ok (r, m))
    (hsucc : ∀ n c j r m, loop (n + 1) c j = .ok (r, m) ↔ Last c j r m ∨
      ∃ v d k s, Round c j v d k ∧ loop n d k = .ok (s, m) ∧ r = s.map (v :: ·))
    {n : Nat} {r : Reply C τ (List α)} : loop n c j = .ok (r, m) ↔
      ∃ vs e i s, vs.length < n ∧ Rounds Round c j vs e i ∧ Last e i s m ∧
        r = s.map (vs ++ ·) := by
  induction n generalizing c j r with
  | zero =>
    constructor
    · intro h
      exact absurd h (hzero c j r m)
    · rintro ⟨_, _, _, _, hn, _⟩
      exact absurd hn (Nat.not_lt_zero _)
  | succ n ih =>
    rw [hsucc]
    constructor
    · rintro (h | ⟨v, d, k, s, hv, hs, rfl⟩)
      · exact ⟨[], c, j, r, Nat.succ_pos n, .nil, h, by simp⟩
      · obtain ⟨vs, e, i, t, hn, hvs, hlast, rfl⟩ := ih.1 hs
        exact ⟨v :: vs, e, i, t, Nat.succ_lt_succ hn, .cons hv hvs, hlast, by simp⟩
    · rintro ⟨_ | ⟨v, vs⟩, e, i, s, hn, hvs, hlast, rfl⟩
      · obtain ⟨rfl, rfl⟩ := rounds_nil_iff.1 hvs
        exact .inl (by simpa using hlast)
      · obtain ⟨d, k, hv, hvs⟩ := rounds_cons_iff.1 hvs
        have hs := ih.2 ⟨vs, e, i, s, Nat.lt_of_succ_lt_succ hn, hvs, hlast, rfl⟩
        exact .inr ⟨v, d, k, _, hv, hs, by simp⟩

section Endings

variable {Reads : List α → C → Journal σ → Prop} {f : Failure C τ} {n : Nat}

/-- Values that were read and a last round that adds none are the values of a success. -/
theorem ends_ok_iff (hlast : ∀ {d i us e}, Last d i (.ok us e) m → us = [] ∧ e = d) :
    (∃ us d i s, us.length < n ∧ Reads us d i ∧ Last d i s m ∧
      .ok vs e = s.map (us ++ ·)) ↔
      vs.length < n ∧ ∃ i, Reads vs e i ∧ Last e i (.ok [] e) m := by
  constructor
  · rintro ⟨us, d, i, s, hn, hus, hs, hr⟩
    obtain ⟨ws, rfl, rfl⟩ := Reply.map_eq_ok.1 hr.symm
    obtain ⟨rfl, rfl⟩ := hlast hs
    rw [List.append_nil]
    exact ⟨hn, i, hus, hs⟩
  · rintro ⟨hn, i, hvs, hs⟩
    exact ⟨vs, e, i, .ok [] e, hn, hvs, hs, by simp [Reply.map]⟩

/-- What was read before a failure is lost. -/
theorem ends_fail_iff : (∃ us d i s, us.length < n ∧ Reads us d i ∧ Last d i s m ∧
      .fail f = s.map (us ++ ·)) ↔
    ∃ us d i, us.length < n ∧ Reads us d i ∧ Last d i (.fail f) m := by
  constructor
  · rintro ⟨us, d, i, s, hn, hus, hs, hr⟩
    obtain rfl := Reply.map_eq_fail.1 hr.symm
    exact ⟨us, d, i, hn, hus, hs⟩
  · rintro ⟨us, d, i, hn, hus, hs⟩
    exact ⟨us, d, i, .fail f, hn, hus, hs, rfl⟩

end Endings

end Descent.Parser
