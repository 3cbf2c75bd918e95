import Descent.Proofs.Stream.Torn
import Descent.Proofs.Text.LongestRun

/-! What is left of a stream. Every character that a cursor sees is in front of the end of the data
and has at least one byte, so from every cursor of a session one comes to the end of the input,
whatever fails on the way. What is passed on that way is what the stream still holds. -/
namespace Descent.Session

variable {script : Script} {capacity : Nat} {encoding : Encoding}
  {rule : Position → Char → Position} {s : Session} {c : WindowCursor}

/-- A cursor that sees a character stands in front of the end of the data. -/
theorem Stems.size_pos (h : s.Stems script encoding) (hc : c ∈ s.cursors) {ch : Char} {size : Nat}
    (hahead : c.ahead = some (ch, size)) :
    0 < size ∧ c.position.offset < script.data.length := by
  obtain hgenuine | ⟨-, ⟨⟩, f, -, -, -, -, d, n, hdecode, -⟩ := h.tokens c hc _ hahead
  · have hsize := Encoding.size_of_decode hgenuine
    rw [List.length_drop] at hsize
    omega
  · have hsize := Encoding.size_of_decode hdecode
    rw [List.length_drop] at hsize
    omega

theorem holds_nil (h : c.ahead = none) (j : Journal Window) : Cursor.Holds c j [] :=
  Cursor.holds_of_none (congrArg (Option.map (·.1)) h) j

/-- Every cursor of a session holds a text. -/
theorem Reached.exists_holds (h : s.Reached script capacity encoding rule) (hc : c ∈ s.cursors) :
    ∃ text, Cursor.Holds c s.journal text := by
  obtain ⟨n, hn⟩ : ∃ n, script.data.length ≤ c.position.offset + n := ⟨_, Nat.le_add_left _ _⟩
  -- the data in front of a cursor get fewer with each character
  induction n generalizing s c with
  | zero =>
    cases hahead : c.ahead with
    | none => exact ⟨[], holds_nil hahead _⟩
    | some token => exact absurd (h.stems.size_pos hc hahead).2 (Nat.not_lt.2 hn)
  | succ n ih =>
    cases hahead : c.ahead with
    | none => exact ⟨[], holds_nil hahead _⟩
    | some token =>
      obtain ⟨d, j, hadvance⟩ := WindowCursor.exists_advance hahead s.journal
      obtain ⟨ch, size, hsome, -, hplace, -⟩ := WindowCursor.advance_eq_ok hadvance
      have hpos := (h.stems.size_pos hc hsome).1
      obtain ⟨text, htext⟩ := ih (h.step (.advance hc hadvance)) List.mem_cons_self (by omega)
      exact ⟨ch :: text, htext.cons ⟨congrArg (Option.map (·.1)) hsome, hadvance⟩⟩

end Descent.Session
