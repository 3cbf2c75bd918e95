import Descent.Proofs.Text.Columns
import Mathlib.Data.Nat.ModEq
import Mathlib.Data.Prod.Lex
import Mathlib.Order.Bounds.Basic

/-! Places in a text. Line and column grow with every character, in this order: a newline leads to a
later line, and all else leads further right on the same line. So they tell the cursors of a text
apart as well as offsets do. -/
namespace Descent

namespace Position

variable {tab column : Nat} {p : Position} {c : Char} {text : List Char}

def place (p : Position) : ℕ ×ₗ ℕ := toLex (p.line, p.column)

theorem place_inj {p q : Position} :
    p.place = q.place ↔ p.line = q.line ∧ p.column = q.column := by
  simp [place]

section TabStop

/-- The stop of a tab that has a width, from a column that is `k` columns past the first. -/
theorem tabStop_succ (htab : 1 ≤ tab) (k : Nat) :
    tabStop tab (k + 1) = tab * (k / tab + 1) + 1 := by
  rw [tabStop, if_neg (Nat.ne_of_gt htab), Nat.add_sub_cancel, Nat.mul_comm]

/-- A tab leads to the next column behind a multiple of its width. -/
theorem isLeast_tabStop (htab : 1 ≤ tab) (hcolumn : 1 ≤ column) :
    IsLeast {n | column < n ∧ n ≡ 1 [MOD tab]} (tabStop tab column) := by
  obtain ⟨k, rfl⟩ := Nat.exists_eq_add_of_le' hcolumn
  rw [tabStop_succ htab]
  constructor
  · constructor
    · exact Nat.succ_lt_succ (Nat.lt_mul_div_succ k htab)
    · simp [Nat.ModEq]
  · rintro n ⟨hlt, hmod⟩
    obtain ⟨q, hq⟩ := (Nat.modEq_iff_dvd' (by omega)).1 hmod.symm
    have hless : k / tab < q := Nat.div_lt_of_lt_mul (by omega)
    have hstop : tab * (k / tab + 1) ≤ tab * q := Nat.mul_le_mul_left tab hless
    omega

theorem lt_tabStop (tab : Nat) (hcolumn : 1 ≤ column) : column < tabStop tab column := by
  by_cases htab : tab = 0
  · rw [tabStop, if_pos htab]
    exact Nat.lt_succ_self column
  · exact (isLeast_tabStop (Nat.pos_of_ne_zero htab) hcolumn).1.1

/-- A tab is no wider than its width, and one column wide if it has none. -/
theorem tabStop_le (tab : Nat) (hcolumn : 1 ≤ column) :
    tabStop tab column ≤ column + max tab 1 := by
  by_cases htab : tab = 0
  · rw [tabStop, if_pos htab]
    omega
  · obtain ⟨k, rfl⟩ := Nat.exists_eq_add_of_le' hcolumn
    rw [tabStop_succ (Nat.pos_of_ne_zero htab), Nat.mul_succ]
    have hdiv := Nat.mul_div_le k tab
    omega

end TabStop

section Characters

theorem place_lt_nextChar (tab : Nat) (hcolumn : 1 ≤ p.column) (c : Char) :
    p.place < (nextChar tab p c).place := by
  rw [place, place, Prod.Lex.toLex_lt_toLex]
  unfold nextChar
  split
  · exact .inl (Nat.lt_succ_self _)
  · split
    · exact .inr ⟨rfl, lt_tabStop tab hcolumn⟩
    · exact .inr ⟨rfl, Nat.lt_succ_self _⟩

theorem line_nextChar (tab : Nat) (p : Position) (c : Char) :
    (nextChar tab p c).line = p.line + [c].count '\n' := by
  unfold nextChar
  split
  · rename_i hc
    simp [hc]
  · rename_i hc
    split <;> simp [hc, nextColumn]

theorem column_nextChar_le (hcolumn : 1 ≤ p.column) (c : Char) :
    (nextChar tab p c).column ≤ p.column + max tab 1 := by
  unfold nextChar
  split
  · exact Nat.le_add_right_of_le hcolumn
  · split
    · exact tabStop_le tab hcolumn
    · exact Nat.add_le_add_left (Nat.le_max_right tab 1) _

end Characters

section Texts

/-- A text leads to a later place. -/
theorem place_lt_foldl (hcolumn : 1 ≤ p.column) (hne : text ≠ []) :
    p.place < (text.foldl (nextChar tab) p).place := by
  induction text generalizing p with
  | nil => exact absurd rfl hne
  | cons c text ih =>
    have hfirst := place_lt_nextChar tab hcolumn c
    cases text with
    | nil => exact hfirst
    | cons d text =>
      exact hfirst.trans (ih (one_le_column_nextChar tab p c) (List.cons_ne_nil d text))

theorem line_foldl (tab : Nat) (p : Position) (text : List Char) :
    (text.foldl (nextChar tab) p).line = p.line + text.count '\n' := by
  induction text generalizing p with
  | nil => rfl
  | cons c text ih =>
    rw [List.foldl_cons, ih, line_nextChar, Nat.add_assoc, ← List.count_append,
      List.singleton_append]

theorem offset_foldl (tab : Nat) (p : Position) (text : List Char) :
    (text.foldl (nextChar tab) p).offset = p.offset + text.length := by
  induction text generalizing p with
  | nil => rfl
  | cons c text ih =>
    rw [List.foldl_cons, ih, offset_nextChar, List.length_cons]
    omega

theorem column_foldl_le (hcolumn : 1 ≤ p.column) (text : List Char) :
    (text.foldl (nextChar tab) p).column ≤ p.column + text.length * max tab 1 := by
  induction text generalizing p with
  | nil => rw [List.length_nil, Nat.zero_mul, Nat.add_zero, List.foldl_nil]
  | cons c text ih =>
    have hfirst : (nextChar tab p c).column ≤ p.column + max tab 1 := column_nextChar_le hcolumn c
    have hmore := ih (one_le_column_nextChar tab p c)
    rw [List.foldl_cons, List.length_cons, Nat.succ_mul]
    omega

end Texts

end Position

namespace TokenCursor

section Reaching

variable {τ : Type} {start c d : TokenCursor τ}

/-- Between a cursor and one that it leads to stands the text that is read on the way. -/
theorem Reaches.exists_passes (h : start.Reaches c) : ∃ read, start.Passes read c := by
  obtain ⟨k, hk, rfl⟩ := h
  have hlength : (start.rest.take k).length = k := List.length_take_of_le hk
  refine ⟨start.rest.take k, ?_, by rw [hlength]⟩
  rw [rest_forward, List.take_append_drop]

/-- Of two cursors of one input the one in front leads to the other. -/
theorem Reaches.of_offset_le (hc : start.Reaches c) (hd : start.Reaches d)
    (h : c.position.offset ≤ d.position.offset) : c.Reaches d := by
  obtain ⟨i, hi, rfl⟩ := hc
  obtain ⟨k, hk, rfl⟩ := hd
  rw [offset_forward hi, offset_forward hk] at h
  obtain ⟨n, rfl⟩ := Nat.exists_eq_add_of_le (Nat.le_of_add_le_add_left h)
  refine ⟨n, ?_, forward_add start i n⟩
  rw [rest_forward, List.length_drop]
  omega

/-- Where a cursor can be moved on there is a token. -/
theorem isSome_of_advance (h : (advance c : Outcome (TokenCursor τ)) = .ok d) :
    (Cursor.current c).isSome := by
  obtain ⟨source, rest, position, rule⟩ := c
  cases rest with
  | nil => cases h
  | cons t rest => rfl

end Reaching

variable {c d : TokenCursor Char} {text : String} {tab : Nat}

/-- What was read to come to a cursor tells where it stands. -/
theorem Reaches.position_eq (h : (ofText text tab).Reaches c) :
    ∃ read, text.toList = read ++ c.rest ∧ c.rule = Position.nextChar tab ∧
      c.position = read.foldl (Position.nextChar tab) .start := by
  obtain ⟨read, hread⟩ := h.exists_passes
  exact ⟨read, hread.rest_eq, hread.rule_eq, hread.position_eq rfl⟩

theorem Reaches.one_le_column (h : (ofText text tab).Reaches c) : 1 ≤ c.position.column := by
  obtain ⟨read, -, -, hposition⟩ := h.position_eq
  rw [hposition]
  exact Position.one_le_column tab (Nat.le_refl 1) read

/-- Cursors further into a text stand at later places. -/
theorem Reaches.place_lt (hc : (ofText text tab).Reaches c) (hd : (ofText text tab).Reaches d)
    (h : c.position.offset < d.position.offset) : c.position.place < d.position.place := by
  obtain ⟨read, hread⟩ := (hc.of_offset_le hd (Nat.le_of_lt h)).exists_passes
  obtain ⟨-, -, hrule, -⟩ := hc.position_eq
  have hne : read ≠ [] := by
    rintro rfl
    rw [hread.eq_nil] at h
    exact Nat.lt_irrefl _ h
  rw [hread.position_eq hrule]
  exact Position.place_lt_foldl hc.one_le_column hne

/-- Line and column identify a place in a text. They count what has been read: columns and lines
from one, and a line for each newline. Moving on leads to a later line or, on the same line, further
right, and by a tab to the next column behind a multiple of its width. No column is further right
than if all that was read were tabs, so columns of 64 bits are enough for `n` characters as long as
`1 + n * max tab 1` is below `2 ^ 64`. Cursors with the same line and column are one. -/
theorem line_column_identify (text : String) (tab : Nat) :
    (∀ c, (ofText text tab).Reaches c →
      1 ≤ c.position.column ∧
      (∃ read, text.toList = read ++ c.rest ∧ c.position.line = 1 + read.count '\n' ∧
        c.position.offset = read.length ∧
        c.position.column ≤ 1 + read.length * max tab 1) ∧
      ∀ d, (advance c : Outcome (TokenCursor Char)) = .ok d →
        (ofText text tab).Reaches d ∧ c.position.place < d.position.place ∧
          (Cursor.current c = some '\t' → 1 ≤ tab →
            IsLeast {n | c.position.column < n ∧ n ≡ 1 [MOD tab]} d.position.column)) ∧
    ∀ c d, (ofText text tab).Reaches c → (ofText text tab).Reaches d →
      (c.position.line = d.position.line ∧ c.position.column = d.position.column ↔ c = d) := by
  refine ⟨fun c h => ⟨h.one_le_column, ?_, fun d hadvance => ?_⟩, fun c d hc hd => ?_⟩
  · obtain ⟨read, hread, -, hposition⟩ := h.position_eq
    refine ⟨read, hread, ?_, ?_, ?_⟩
    · rw [hposition, Position.line_foldl]
      rfl
    · rw [hposition, Position.offset_foldl]
      exact Nat.zero_add _
    · rw [hposition]
      exact Position.column_foldl_le (Nat.le_refl 1) read
  · obtain ⟨-, -, hrule, -⟩ := h.position_eq
    have hsome := isSome_of_advance hadvance
    rw [advance_eq hsome] at hadvance
    cases hadvance
    obtain ⟨t, ht⟩ := Option.isSome_iff_exists.1 hsome
    rw [position_step_nextChar ht hrule]
    refine ⟨h.step hsome, Position.place_lt_nextChar tab h.one_le_column t, fun htab hwidth => ?_⟩
    cases ht.symm.trans htab
    exact Position.isLeast_tabStop hwidth h.one_le_column
  · rw [← Position.place_inj]
    constructor
    · intro hplace
      rcases Nat.lt_trichotomy c.position.offset d.position.offset with hlt | heq | hgt
      · exact absurd hplace (hc.place_lt hd hlt).ne
      · exact hc.eq_of_offset hd heq
      · exact absurd hplace (hd.place_lt hc hgt).ne'
    · rintro rfl
      rfl

/-- Behind `a` a tab leads to column 5. -/
theorem line_column_identify_tab : ∃ c d, (ofText "a\tb" 4).Reaches c ∧
    (advance c : Outcome (TokenCursor Char)) = .ok d ∧ c.position.place < d.position.place ∧
    IsLeast {n | 2 < n ∧ n ≡ 1 [MOD 4]} d.position.column ∧ d.position.column = 5 := by
  have hc : (ofText "a\tb" 4).Reaches ((ofText "a\tb" 4).forward 1) := ⟨1, by decide, rfl⟩
  obtain ⟨-, -, hsteps⟩ := (line_column_identify "a\tb" 4).1 _ hc
  obtain ⟨-, hplace, hstop⟩ := hsteps _ rfl
  exact ⟨_, _, hc, rfl, hplace, hstop rfl (by decide), rfl⟩

end TokenCursor

end Descent
