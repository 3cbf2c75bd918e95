import Descent.Stream.Encoding
import Mathlib.Data.Nat.Init

/-! The characters that bytes stand for, without any window: the first one is decoded, its bytes
are dropped, and so on to the end. A character has at least one byte, and no character is decided
by more bytes than the longest has. -/
namespace Descent.Encoding

theorem continued_take {n : Nat} (code : Nat) (bytes : List UInt8) (k : Nat) (h : n ≤ k) :
    continued n code (bytes.take k) = continued n code bytes := by
  induction n generalizing code bytes k with
  | zero => rw [continued, continued]
  | succ n ih =>
    obtain ⟨k, rfl⟩ : ∃ m, k = m + 1 := ⟨k - 1, by omega⟩
    cases bytes with
    | nil => rfl
    | cons b more =>
      rw [List.take_succ_cons, continued, continued, ih _ more k (Nat.le_of_succ_le_succ h)]

/-- The first bytes of longer forms. -/
theorem lead_eq_some_iff {b n bits least : Nat} : lead b = some (n, bits, least) ↔
    n = 1 ∧ b = bits + 0xC0 ∧ bits < 0x20 ∧ least = 0x80 ∨
      n = 2 ∧ b = bits + 0xE0 ∧ bits < 0x10 ∧ least = 0x800 ∨
        n = 3 ∧ b = bits + 0xF0 ∧ bits < 8 ∧ least = 0x10000 := by
  unfold lead
  repeat' split
  all_goals simp only [Option.some.injEq, Prod.mk.injEq, reduceCtorEq, false_iff]
  all_goals omega

/-- A first byte announces no more than three others. -/
theorem le_three_of_lead {b n bits least : Nat} (h : lead b = some (n, bits, least)) : n ≤ 3 := by
  have hcases := lead_eq_some_iff.1 h
  omega

theorem sequence_take (b : UInt8) (bytes : List UInt8) :
    sequence b (bytes.take 3) = sequence b bytes := by
  unfold sequence
  cases h : lead b.toNat with
  | none => rfl
  | some l =>
    obtain ⟨n, bits, least⟩ := l
    have hn : n ≤ 3 := le_three_of_lead h
    change (continued n bits (bytes.take 3)).bind _ = (continued n bits bytes).bind _
    rw [continued_take bits bytes 3 hn]

theorem longest_le (encoding : Encoding) : encoding.longest ≤ 4 := by
  cases encoding <;> decide

theorem longest_pos (encoding : Encoding) : 0 < encoding.longest := by
  cases encoding <;> decide

/-- What a character is depends on no more bytes than the longest has. -/
theorem decode_take (encoding : Encoding) (bytes : List UInt8) :
    encoding.decode (bytes.take encoding.longest) = encoding.decode bytes := by
  cases bytes with
  | nil => rw [List.take_nil]
  | cons b more =>
    cases encoding with
    | utf8 =>
      simp only [longest, decode, decodeUtf8, List.take_succ_cons]
      rw [sequence_take]
    | latin1 => rfl

theorem length_of_continued {n code result : Nat} {bytes : List UInt8}
    (h : continued n code bytes = some result) : n ≤ bytes.length := by
  induction n generalizing code bytes with
  | zero => exact Nat.zero_le _
  | succ n ih =>
    cases bytes with
    | nil => cases h
    | cons b more =>
      rw [continued] at h
      split at h
      · exact Nat.succ_le_succ (ih h)
      · cases h

/-- A sequence is a byte and some of those after it. -/
theorem size_of_sequence {b : UInt8} {more : List UInt8} {c : Char} {size : Nat}
    (h : sequence b more = some (c, size)) : 0 < size ∧ size ≤ more.length + 1 := by
  unfold sequence at h
  cases hl : lead b.toNat with
  | none =>
    rw [hl] at h
    cases h
  | some l =>
    rw [hl] at h
    change (continued l.1 l.2.1 more).bind _ = _ at h
    obtain ⟨code, hcode, h⟩ := Option.bind_eq_some_iff.1 h
    by_cases hvalid : l.2.2 ≤ code ∧ code.isValidChar
    · rw [dif_pos hvalid] at h
      cases h
      exact ⟨Nat.succ_pos _, Nat.succ_le_succ (length_of_continued hcode)⟩
    · rw [dif_neg hvalid] at h
      cases h

/-- Where there is a byte there is a character, and its bytes are among those there. -/
theorem decode_cons (encoding : Encoding) (b : UInt8) (more : List UInt8) :
    ∃ c size, encoding.decode (b :: more) = some (c, size) ∧
      0 < size ∧ size ≤ more.length + 1 := by
  have hone : 0 < 1 ∧ 1 ≤ more.length + 1 := ⟨Nat.one_pos, Nat.le_add_left 1 _⟩
  cases encoding with
  | latin1 => exact ⟨_, 1, rfl, hone⟩
  | utf8 =>
    unfold decode decodeUtf8
    dsimp only
    split
    · exact ⟨_, 1, rfl, hone⟩
    · cases h : sequence b more with
      | none => exact ⟨_, 1, rfl, hone⟩
      | some l => exact ⟨l.1, l.2, rfl, size_of_sequence h⟩

theorem decode_nil (encoding : Encoding) : encoding.decode [] = none := by
  cases encoding <;> rfl

variable {encoding : Encoding} {bytes : List UInt8} {c : Char} {size : Nat}

theorem size_of_decode (h : encoding.decode bytes = some (c, size)) :
    0 < size ∧ size ≤ bytes.length := by
  cases bytes with
  | nil =>
    rw [decode_nil] at h
    cases h
  | cons b more =>
    obtain ⟨c', size', h', hsize⟩ := decode_cons encoding b more
    rw [h'] at h
    cases h
    exact hsize

theorem decode_ne_none (h : bytes ≠ []) : encoding.decode bytes ≠ none := by
  obtain ⟨b, more, rfl⟩ := List.exists_cons_of_ne_nil h
  obtain ⟨c, size, hdecode, -⟩ := encoding.decode_cons b more
  rw [hdecode]
  exact Option.some_ne_none _

theorem length_drop_lt (h : encoding.decode bytes = some (c, size)) :
    (bytes.drop size).length < bytes.length := by
  obtain ⟨hpos, hle⟩ := size_of_decode h
  rw [List.length_drop]
  omega

/-- The characters of bytes, each with the number of its bytes. -/
def chars (encoding : Encoding) (bytes : List UInt8) : List (Char × Nat) :=
  match _h : encoding.decode bytes with
  | none => []
  | some (c, size) => (c, size) :: chars encoding (bytes.drop size)
termination_by bytes.length
decreasing_by exact length_drop_lt _h

def text (encoding : Encoding) (bytes : List UInt8) : String :=
  String.ofList ((chars encoding bytes).map (·.1))

/-- Where character `k` of the text begins: after the bytes of those before it. -/
def byteOffset (encoding : Encoding) (bytes : List UInt8) : Nat → Nat
  | 0 => 0
  | k + 1 =>
    byteOffset encoding bytes k + (((chars encoding bytes)[k]?).map (·.2)).getD 0

theorem chars_of_none (h : encoding.decode bytes = none) : chars encoding bytes = [] := by
  rw [chars]
  split
  · rfl
  · simp_all

theorem chars_of_some (h : encoding.decode bytes = some (c, size)) :
    chars encoding bytes = (c, size) :: chars encoding (bytes.drop size) := by
  rw [chars]
  split <;> simp_all

theorem head?_chars (encoding : Encoding) (bytes : List UInt8) :
    (chars encoding bytes).head? = encoding.decode bytes := by
  cases h : encoding.decode bytes with
  | none => rw [chars_of_none h, List.head?_nil]
  | some l => rw [chars_of_some h, List.head?_cons]

theorem byteOffset_succ {k : Nat} (h : (chars encoding bytes)[k]? = some (c, size)) :
    byteOffset encoding bytes (k + 1) = byteOffset encoding bytes k + size := by
  rw [byteOffset, h]
  rfl

/-- The bytes from where character `k` begins stand for the characters from `k` on. -/
theorem chars_drop (encoding : Encoding) (bytes : List UInt8) (k : Nat) :
    chars encoding (bytes.drop (byteOffset encoding bytes k)) = (chars encoding bytes).drop k := by
  induction k with
  | zero => rfl
  | succ k ih =>
    cases h : (chars encoding bytes)[k]? with
    | none =>
      have hlength : (chars encoding bytes).length ≤ k := List.getElem?_eq_none_iff.1 h
      rw [byteOffset, h]
      change chars encoding (bytes.drop (byteOffset encoding bytes k)) = _
      rw [ih, List.drop_of_length_le hlength, List.drop_of_length_le (Nat.le_succ_of_le hlength)]
    | some l =>
      have hdecode : encoding.decode (bytes.drop (byteOffset encoding bytes k)) = some l := by
        rw [← head?_chars, ih, List.head?_drop, h]
      have hcons := chars_of_some hdecode
      rw [ih, List.drop_drop, ← byteOffset_succ h] at hcons
      rw [← List.tail_drop, hcons, List.tail_cons]

/-- Character `k` is what the bytes at its offset begin with. -/
theorem decode_byteOffset (encoding : Encoding) (bytes : List UInt8) (k : Nat) :
    encoding.decode (bytes.drop (byteOffset encoding bytes k)) = (chars encoding bytes)[k]? := by
  rw [← head?_chars, chars_drop, List.head?_drop]

/-- Later characters begin later. -/
theorem byteOffset_lt {i k : Nat} (hik : i < k) (hk : k ≤ (chars encoding bytes).length) :
    byteOffset encoding bytes i < byteOffset encoding bytes k := by
  induction k, hik using Nat.le_induction with
  | base =>
    obtain ⟨⟨c, size⟩, hget⟩ : ∃ l, (chars encoding bytes)[i]? = some l :=
      ⟨_, List.getElem?_eq_getElem hk⟩
    have hpos : 0 < size := (size_of_decode ((decode_byteOffset encoding bytes i).trans hget)).1
    rw [byteOffset_succ hget]
    omega
  | succ k _ ih =>
    obtain ⟨⟨c, size⟩, hget⟩ : ∃ l, (chars encoding bytes)[k]? = some l :=
      ⟨_, List.getElem?_eq_getElem hk⟩
    have hlt := ih (Nat.le_of_succ_le hk)
    rw [byteOffset_succ hget]
    omega

theorem byteOffset_lt_iff {i k : Nat} (hi : i ≤ (chars encoding bytes).length)
    (hk : k ≤ (chars encoding bytes).length) :
    byteOffset encoding bytes i < byteOffset encoding bytes k ↔ i < k := by
  constructor
  · intro h
    rcases Nat.lt_trichotomy i k with hik | rfl | hki
    · exact hik
    · exact absurd h (Nat.lt_irrefl _)
    · exact absurd h (Nat.lt_asymm (byteOffset_lt hki hi))
  · intro h
    exact byteOffset_lt h hk

end Descent.Encoding
