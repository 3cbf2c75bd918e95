import Descent.Proofs.Text.Lexemes

/-! Columns. Where a cursor stands in a text depends on the text that was read to come there: a
newline leads to the first column, and whatever else is read leads further right. -/
namespace Descent

namespace Position

variable {tab : Nat} {p : Position} {text : List Char}

theorem column_nextChar_space (tab : Nat) (p : Position) :
    (nextChar tab p ' ').column = p.column + 1 := rfl

theorem column_nextChar_newline (tab : Nat) (p : Position) :
    (nextChar tab p '\n').column = 1 := rfl

theorem column_spaces (tab : Nat) (p : Position) (n : Nat) :
    ((List.replicate n ' ').foldl (nextChar tab) p).column = p.column + n := by
  induction n generalizing p with
  | zero => rfl
  | succ n ih =>
    rw [List.replicate_succ, List.foldl_cons, ih, column_nextChar_space]
    omega

/-- A line that begins with `n` spaces. -/
theorem column_indented (tab : Nat) (p : Position) (before : List Char) (n : Nat) :
    ((before ++ '\n' :: List.replicate n ' ').foldl (nextChar tab) p).column = n + 1 := by
  rw [List.foldl_append, List.foldl_cons, column_spaces, column_nextChar_newline, Nat.add_comm]

theorem one_le_column_nextChar (tab : Nat) (p : Position) (c : Char) :
    1 ≤ (nextChar tab p c).column := by
  unfold nextChar tabStop nextColumn
  split
  · exact Nat.le_refl 1
  · split
    · split <;> simp
    · simp

theorem one_lt_column_nextChar (tab : Nat) (h : 1 ≤ p.column) {c : Char} (hc : c ≠ '\n') :
    1 < (nextChar tab p c).column := by
  unfold nextChar tabStop nextColumn
  rw [if_neg hc]
  split
  · dsimp only
    split
    · omega
    · rename_i htab
      have hpos : 0 < ((p.column - 1) / tab + 1) * tab :=
        Nat.mul_pos (Nat.succ_pos _) (Nat.pos_of_ne_zero htab)
      omega
  · exact Nat.lt_succ_of_le h

theorem one_le_column (tab : Nat) (h : 1 ≤ p.column) (text : List Char) :
    1 ≤ (text.foldl (nextChar tab) p).column := by
  induction text generalizing p with
  | nil => exact h
  | cons c text ih => exact ih (one_le_column_nextChar tab p c)

/-- Behind anything but a newline a line has begun. -/
theorem one_lt_column (tab : Nat) (h : 1 ≤ p.column) (text : List Char) {c : Char}
    (hc : c ≠ '\n') : 1 < ((text ++ [c]).foldl (nextChar tab) p).column := by
  rw [List.foldl_append]
  exact one_lt_column_nextChar tab (one_le_column tab h text) hc

end Position

namespace TokenCursor

variable {c d : TokenCursor Char} {text : List Char} {tab : Nat}

theorem position_step_nextChar {t : Char} (h : Cursor.current c = some t)
    (hrule : c.rule = Position.nextChar tab) :
    c.step.position = Position.nextChar tab c.position t := by
  rw [position_step h, hrule, ← Position.offset_nextChar tab c.position t]

theorem Passes.position_eq (h : c.Passes text d) (hrule : c.rule = Position.nextChar tab) :
    d.position = text.foldl (Position.nextChar tab) c.position := by
  induction text generalizing c with
  | nil => rw [h.eq_nil, List.foldl_nil]
  | cons t text ih =>
    rw [List.foldl_cons, ← position_step_nextChar h.current_eq hrule]
    exact ih h.tail (by rw [rule_step, hrule])

theorem Passes.column_eq (h : c.Passes text d) (hrule : c.rule = Position.nextChar tab) :
    (Cursor.level d).column = (text.foldl (Position.nextChar tab) c.position).column :=
  congrArg Position.column (h.position_eq hrule)

theorem Passes.one_le_column (h : c.Passes text d) (hrule : c.rule = Position.nextChar tab)
    (hcolumn : 1 ≤ (Cursor.level c).column) : 1 ≤ (Cursor.level d).column := by
  rw [h.column_eq hrule]
  exact Position.one_le_column tab hcolumn text

end TokenCursor

/-- White space that ends a line and begins another, which is indented by `n` spaces. -/
def LineBreak (n : Nat) (gap : List Char) : Prop :=
  ∃ before, Blanks before ∧ gap = before ++ '\n' :: List.replicate n ' '

/-- What stands in front of a first line that is indented by `n` spaces, with blank lines or
without. -/
def Lead (n : Nat) (lead : List Char) : Prop :=
  lead = List.replicate n ' ' ∨ LineBreak n lead

/-- White space that does not end a line. -/
def Spacing (gap : List Char) : Prop :=
  ∃ before c, Blanks before ∧ CharClass.blank.test c = true ∧ c ≠ '\n' ∧ gap = before ++ [c]

section Gaps

variable {c d : TokenCursor Char} {n tab : Nat} {gap : List Char}

theorem blanks_spaces (n : Nat) : Blanks (List.replicate n ' ') := by
  intro c hc
  rw [List.eq_of_mem_replicate hc]
  rfl

theorem LineBreak.blanks (h : LineBreak n gap) : Blanks gap := by
  obtain ⟨before, hbefore, rfl⟩ := h
  exact List.forall_mem_append.2 ⟨hbefore, List.forall_mem_cons.2 ⟨rfl, blanks_spaces n⟩⟩

theorem LineBreak.length_pos (h : LineBreak n gap) : 0 < gap.length := by
  obtain ⟨before, _, rfl⟩ := h
  exact List.length_pos_of_ne_nil (List.append_ne_nil_of_right_ne_nil _ (List.cons_ne_nil _ _))

theorem Lead.blanks (h : Lead n gap) : Blanks gap := by
  rcases h with rfl | h
  · exact blanks_spaces n
  · exact h.blanks

theorem Spacing.blanks (h : Spacing gap) : Blanks gap := by
  obtain ⟨before, c, hbefore, hc, _, rfl⟩ := h
  exact List.forall_mem_append.2 ⟨hbefore, List.forall_mem_singleton.2 hc⟩

theorem Spacing.length_pos (h : Spacing gap) : 0 < gap.length := by
  obtain ⟨before, c, _, _, _, rfl⟩ := h
  exact List.length_pos_of_ne_nil (List.append_ne_nil_of_right_ne_nil _ (List.cons_ne_nil _ _))

theorem LineBreak.column_eq (h : LineBreak n gap) (hpass : c.Passes gap d)
    (hrule : c.rule = Position.nextChar tab) : (Cursor.level d).column = n + 1 := by
  obtain ⟨before, _, rfl⟩ := h
  rw [hpass.column_eq hrule, Position.column_indented]

theorem Lead.column_eq (h : Lead n gap) (hpass : c.Passes gap d)
    (hrule : c.rule = Position.nextChar tab) (hstart : c.position = .start) :
    (Cursor.level d).column = n + 1 := by
  rcases h with rfl | h
  · rw [hpass.column_eq hrule, hstart, Position.column_spaces, Nat.add_comm]
    rfl
  · exact h.column_eq hpass hrule

theorem Spacing.one_lt_column (h : Spacing gap) (hpass : c.Passes gap d)
    (hrule : c.rule = Position.nextChar tab) (hcolumn : 1 ≤ (Cursor.level c).column) :
    1 < (Cursor.level d).column := by
  obtain ⟨before, ch, _, _, hne, rfl⟩ := h
  rw [hpass.column_eq hrule]
  exact Position.one_lt_column tab hcolumn before hne

end Gaps

end Descent
