/-! Sets of characters, written as the ranges of code points they fill. -/
namespace Descent.Text

def increasing : List (Nat × Nat) → Bool
  | [] => true
  | [r] => r.1 ≤ r.2
  | r :: s :: more => r.1 ≤ r.2 && r.2 < s.1 && increasing (s :: more)

/-- Ranges of code points, both ends included, in increasing order. -/
structure CodePoints where
  ranges : List (Nat × Nat)
  ordered : increasing ranges = true

/-- Whether some range holds `n`; the search stops at the first range that starts after it. -/
def search (n : Nat) : List (Nat × Nat) → Bool
  | [] => false
  | r :: more => r.1 ≤ n && (n ≤ r.2 || search n more)

theorem increasing_tail {r : Nat × Nat} {more : List (Nat × Nat)}
    (h : increasing (r :: more) = true) : increasing more = true := by
  cases more with
  | nil => rfl
  | cons s more =>
    simp only [increasing, Bool.and_eq_true] at h
    exact h.2

theorem first_le_of_increasing {r : Nat × Nat} {more : List (Nat × Nat)}
    (h : increasing (r :: more) = true) {s : Nat × Nat} (hs : s ∈ more) : r.1 ≤ s.1 := by
  induction more generalizing r with
  | nil => cases hs
  | cons t more ih =>
    have htail := increasing_tail h
    simp only [increasing, Bool.and_eq_true, decide_eq_true_eq] at h
    rcases List.mem_cons.1 hs with rfl | hs
    · omega
    · have := ih htail hs
      omega

theorem search_eq_true_iff {ranges : List (Nat × Nat)} (h : increasing ranges = true) (n : Nat) :
    search n ranges = true ↔ ∃ r ∈ ranges, r.1 ≤ n ∧ n ≤ r.2 := by
  induction ranges with
  | nil => simp [search]
  | cons r more ih =>
    simp only [search, Bool.and_eq_true, Bool.or_eq_true, decide_eq_true_eq,
      ih (increasing_tail h), List.mem_cons, exists_eq_or_imp]
    constructor
    · rintro ⟨hr, hr' | hs⟩
      · exact .inl ⟨hr, hr'⟩
      · exact .inr hs
    · rintro (⟨hr, hr'⟩ | ⟨s, hs, hn, hn'⟩)
      · exact ⟨hr, .inl hr'⟩
      · exact ⟨Nat.le_trans (first_le_of_increasing h hs) hn, .inr ⟨s, hs, hn, hn'⟩⟩

namespace CodePoints

def holds (s : CodePoints) (c : Char) : Bool := search c.toNat s.ranges

/-- The order of the ranges makes the search complete. -/
theorem holds_iff (s : CodePoints) (c : Char) :
    s.holds c = true ↔ ∃ r ∈ s.ranges, r.1 ≤ c.toNat ∧ c.toNat ≤ r.2 :=
  search_eq_true_iff s.ordered c.toNat

end CodePoints

end Descent.Text
