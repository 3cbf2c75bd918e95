import Descent.Proofs.Stream.Chars
import Mathlib.Algebra.GroupWithZero.Nat

/-! UTF-8 read back. A character of two bytes or more is a first byte and continuation bytes of six
bits each. Bytes are decoded to the character whose form they begin with, and to the replacement
where they begin with the form of none, so the form of a text is decoded to that text. -/
namespace Descent.Encoding

open String (utf8EncodeChar)

variable {bits code least n size : Nat} {b : UInt8} {bytes more : List UInt8} {c d : Char}

section Continuation

/-- The last `n` groups of six bits of a code point, a byte each. -/
def continuation : (n code : Nat) → List UInt8
  | 0, _ => []
  | n + 1, code => UInt8.ofNat (code / 64 ^ n % 64 + 0x80) :: continuation n code

theorem length_continuation (n code : Nat) : (continuation n code).length = n := by
  induction n with
  | zero => rfl
  | succ n ih => rw [continuation, List.length_cons, ih]

/-- A byte continues the bits before it to those of a code point when it holds the next six. -/
theorem continues_iff (b : UInt8) (bits q : Nat) :
    b.toNat / 64 = 2 ∧ q = bits * 64 + b.toNat % 64 ↔
      q / 64 = bits ∧ UInt8.ofNat (q % 64 + 0x80) = b := by
  have hb : b.toNat < 256 := b.toNat_lt
  have hsmall : q % 64 + 0x80 < 256 := by omega
  rw [← UInt8.toNat_inj, UInt8.toNat_ofNat_of_lt' hsmall]
  omega

/-- A code point is completed by its own continuation and by nothing else. -/
theorem continued_eq_some_iff : continued n bits bytes = some code ↔
    code / 64 ^ n = bits ∧ continuation n code <+: bytes := by
  induction n generalizing bits bytes with
  | zero => simp [continued, continuation, eq_comm]
  | succ n ih =>
    cases bytes with
    | nil => simp [continued, continuation]
    | cons b more =>
      have hdiv : code / 64 ^ (n + 1) = code / 64 ^ n / 64 := by
        rw [Nat.pow_succ, Nat.div_div_eq_div_mul]
      rw [continued, continuation, List.cons_prefix_cons, hdiv, ← and_assoc, ← continues_iff]
      split
      · rename_i hb
        rw [ih]
        simp [hb]
      · rename_i hb
        simp [hb]

end Continuation

section FirstByte

/-- Longer forms begin where those of one byte end. -/
theorem least_of_lead {b : Nat} (h : lead b = some (n, bits, least)) :
    0x80 ≤ b ∧ 0x80 ≤ least := by
  have hcases := lead_eq_some_iff.1 h
  omega

/-- A code point has one first byte: no other one announces it in its shortest form. -/
theorem lead_unique {b b' n' least' : Nat} (h : lead b = some (n, code / 64 ^ n, least))
    (hleast : least ≤ code) (h' : lead b' = some (n', code / 64 ^ n', least'))
    (hleast' : least' ≤ code) : b = b' ∧ n = n' := by
  rcases lead_eq_some_iff.1 h with ⟨rfl, hcase⟩ | ⟨rfl, hcase⟩ | ⟨rfl, hcase⟩
  all_goals rcases lead_eq_some_iff.1 h' with ⟨rfl, hcase'⟩ | ⟨rfl, hcase'⟩ | ⟨rfl, hcase'⟩
  all_goals omega

/-- A longer form is a first byte that announces it, and its continuation. -/
theorem exists_lead (h : 0x80 ≤ c.toNat) : ∃ b n least,
    lead b.toNat = some (n, c.toNat / 64 ^ n, least) ∧ least ≤ c.toNat ∧
      utf8EncodeChar c = b :: continuation n c.toNat := by
  have hlast : c.toNat < 0x110000 := by
    have hvalid : c.toNat.isValidChar := c.valid
    rcases hvalid with h | h <;> omega
  have hbyte (q mark : Nat) (hq : q + mark < 256) : (UInt8.ofNat (q + mark)).toNat = q + mark :=
    UInt8.toNat_ofNat_of_lt' hq
  unfold utf8EncodeChar
  rw [Char.toNat_val, if_neg (by omega)]
  by_cases htwo : c.toNat ≤ 0x7FF
  · refine ⟨UInt8.ofNat (c.toNat / 64 % 0x20 + 0xC0), 1, 0x80, ?_, h, ?_⟩
    · rw [hbyte _ _ (by omega)]
      exact lead_eq_some_iff.2 (.inl ⟨rfl, by omega, by omega, rfl⟩)
    · simp [htwo, continuation]
  · by_cases hthree : c.toNat ≤ 0xFFFF
    · refine ⟨UInt8.ofNat (c.toNat / 4096 % 0x10 + 0xE0), 2, 0x800, ?_, by omega, ?_⟩
      · rw [hbyte _ _ (by omega)]
        exact lead_eq_some_iff.2 (.inr (.inl ⟨rfl, by omega, by omega, rfl⟩))
      · simp [htwo, hthree, continuation]
    · refine ⟨UInt8.ofNat (c.toNat / 262144 % 8 + 0xF0), 3, 0x10000, ?_, by omega, ?_⟩
      · rw [hbyte _ _ (by omega)]
        exact lead_eq_some_iff.2 (.inr (.inr ⟨rfl, by omega, by omega, rfl⟩))
      · simp [htwo, hthree, continuation]

end FirstByte

section Decoding

/-- The bytes of a sequence are the form of its character, which has more than one. -/
theorem sequence_eq_some_iff : sequence b more = some (c, size) ↔
    0x80 ≤ c.toNat ∧ utf8EncodeChar c <+: b :: more ∧ size = (utf8EncodeChar c).length := by
  constructor
  · intro h
    unfold sequence at h
    obtain ⟨⟨n, bits, least⟩, hlead, h⟩ := Option.bind_eq_some_iff.1 h
    obtain ⟨code, hcode, h⟩ := Option.bind_eq_some_iff.1 h
    by_cases hvalid : least ≤ code ∧ code.isValidChar
    · rw [dif_pos hvalid] at h
      cases h
      obtain ⟨rfl, hmore⟩ := continued_eq_some_iff.1 hcode
      have hlong := Nat.le_trans (least_of_lead hlead).2 hvalid.1
      obtain ⟨b', n', least', hlead', hleast', hform⟩ :=
        exists_lead (c := Char.ofNatAux code hvalid.2) hlong
      obtain ⟨hb, rfl⟩ := lead_unique hlead hvalid.1 hlead' hleast'
      rw [hform, UInt8.toNat_inj.1 hb, List.length_cons, length_continuation]
      exact ⟨hlong, List.cons_prefix_cons.2 ⟨rfl, hmore⟩, rfl⟩
    · rw [dif_neg hvalid] at h
      cases h
  · rintro ⟨hlong, hform, rfl⟩
    obtain ⟨b', n, least, hlead, hleast, hc⟩ := exists_lead hlong
    rw [hc] at hform ⊢
    obtain ⟨rfl, hmore⟩ := List.cons_prefix_cons.1 hform
    have hcode := continued_eq_some_iff.2 ⟨rfl, hmore⟩
    have hvalid : least ≤ c.toNat ∧ c.toNat.isValidChar := ⟨hleast, c.valid⟩
    rw [sequence, hlead]
    change (continued n (c.toNat / 64 ^ n) more).bind _ = _
    rw [hcode, Option.bind_some, dif_pos hvalid, List.length_cons, length_continuation]
    rfl

/-- A character of one byte is that byte. -/
theorem encode_of_lt (h : c.toNat < 0x80) : utf8EncodeChar c = [UInt8.ofNat c.toNat] := by
  unfold utf8EncodeChar
  rw [Char.toNat_val, if_pos (by omega)]

/-- Bytes that begin with the form of a character are decoded to it. -/
theorem decodeUtf8_of_prefix (h : utf8EncodeChar c <+: bytes) :
    decodeUtf8 bytes = some (c, (utf8EncodeChar c).length) := by
  by_cases hshort : c.toNat < 0x80
  · rw [encode_of_lt hshort] at h ⊢
    obtain ⟨more, rfl⟩ := h
    have hbyte : (UInt8.ofNat c.toNat).toNat = c.toNat :=
      UInt8.toNat_ofNat_of_lt' (Nat.lt_trans hshort (by decide))
    rw [List.singleton_append, decodeUtf8, hbyte, if_pos hshort, Char.ofNat_toNat,
      List.length_singleton]
  · have hlong := Nat.not_lt.1 hshort
    obtain ⟨b, n, least, hlead, -, hform⟩ := exists_lead hlong
    have hb : ¬b.toNat < 0x80 := Nat.not_lt.2 (least_of_lead hlead).1
    obtain ⟨more, rfl⟩ : ∃ more, bytes = b :: more := by
      obtain ⟨rest, rfl⟩ := hform ▸ h
      exact ⟨_, List.cons_append⟩
    rw [decodeUtf8, if_neg hb, sequence_eq_some_iff.2 ⟨hlong, h, rfl⟩]
    rfl

/-- A byte below 0x80 is the form of a character. -/
theorem exists_encode_of_lt (h : b.toNat < 0x80) : ∃ c, utf8EncodeChar c = [b] := by
  have hvalid : b.toNat.isValidChar := .inl (by omega)
  have hc : (Char.ofNatAux b.toNat hvalid).toNat = b.toNat := rfl
  refine ⟨Char.ofNatAux b.toNat hvalid, ?_⟩
  rw [encode_of_lt (by rwa [hc]), hc, UInt8.ofNat_toNat]

/-- Bytes begin with the form of a character, or with none and then the first byte is replaced. -/
theorem decodeUtf8_cons (b : UInt8) (more : List UInt8) :
    (∃ c, utf8EncodeChar c <+: b :: more ∧
        decodeUtf8 (b :: more) = some (c, (utf8EncodeChar c).length)) ∨
      (∀ d, ¬utf8EncodeChar d <+: b :: more) ∧
        decodeUtf8 (b :: more) = some (replacement, 1) := by
  by_cases h : ∃ c, utf8EncodeChar c <+: b :: more
  · obtain ⟨c, hc⟩ := h
    exact .inl ⟨c, hc, decodeUtf8_of_prefix hc⟩
  · rw [not_exists] at h
    have hb : ¬b.toNat < 0x80 := by
      intro hb
      obtain ⟨c, hc⟩ := exists_encode_of_lt hb
      exact h c ⟨more, by rw [hc]; rfl⟩
    have hnone : sequence b more = none := by
      apply Option.eq_none_iff_forall_ne_some.2
      rintro ⟨c, size⟩ hc
      exact h c (sequence_eq_some_iff.1 hc).2.1
    refine .inr ⟨h, ?_⟩
    rw [decodeUtf8, if_neg hb, hnone]
    rfl

end Decoding

section Texts

variable {encoding : Encoding}

/-- The characters of bytes have all the bytes between them. -/
theorem sum_sizes_chars (encoding : Encoding) (bytes : List UInt8) :
    ((chars encoding bytes).map (·.2)).sum = bytes.length := by
  fun_induction chars encoding bytes with
  | case1 bytes h =>
    cases bytes with
    | nil => rfl
    | cons b more => exact absurd h (decode_ne_none (List.cons_ne_nil b more))
  | case2 bytes c size h ih =>
    have hsize := (size_of_decode h).2
    rw [List.map_cons, List.sum_cons, ih, List.length_drop]
    omega

/-- The forms of characters, one after another, are decoded to these characters. -/
theorem chars_encode (text : List Char) : chars .utf8 (text.flatMap utf8EncodeChar) =
    text.map fun c => (c, (utf8EncodeChar c).length) := by
  induction text with
  | nil => exact chars_of_none (decode_nil .utf8)
  | cons c text ih =>
    have hfirst : decode .utf8 (utf8EncodeChar c ++ text.flatMap utf8EncodeChar) =
        some (c, (utf8EncodeChar c).length) := decodeUtf8_of_prefix (List.prefix_append _ _)
    rw [List.flatMap_cons, chars_of_some hfirst, List.drop_left, ih, List.map_cons]

theorem bytes_toUTF8 (s : String) : s.toUTF8.data.toList = s.toList.flatMap utf8EncodeChar := by
  obtain ⟨text, rfl⟩ : ∃ text, s = String.ofList text := ⟨s.toList, String.ofList_toList.symm⟩
  rw [String.toUTF8_eq_toByteArray, String.toByteArray_ofList, List.utf8Encode,
    List.data_toByteArray, String.toList_ofList]

end Texts

/-- Decoding UTF-8 inverts encoding it, and rejects everything else byte by byte. The form of a
character is decoded to it, whatever follows. What is decoded has its form in front of the bytes,
or the bytes begin with the form of no character and one byte is replaced. So the form of a text is
decoded to that text, and the characters of any bytes end where the bytes do. -/
theorem utf8_inverts_encoding :
    (∀ c rest, decodeUtf8 (utf8EncodeChar c ++ rest) = some (c, (utf8EncodeChar c).length)) ∧
    (∀ b more, ∃ c size, decodeUtf8 (b :: more) = some (c, size) ∧
      (size = (utf8EncodeChar c).length ∧ (b :: more).take size = utf8EncodeChar c ∨
        c = replacement ∧ size = 1 ∧ ∀ d, ¬utf8EncodeChar d <+: b :: more)) ∧
    (∀ s : String, text .utf8 s.toUTF8.data.toList = s ∧
      chars .utf8 s.toUTF8.data.toList = s.toList.map fun c => (c, (utf8EncodeChar c).length)) ∧
    ∀ bytes, ((chars .utf8 bytes).map (·.2)).sum = bytes.length := by
  refine ⟨fun c rest => ?_, fun b more => ?_, fun s => ?_, sum_sizes_chars .utf8⟩
  · exact decodeUtf8_of_prefix (List.prefix_append _ _)
  · obtain ⟨c, hc, hdecode⟩ | ⟨hnone, hdecode⟩ := decodeUtf8_cons b more
    · exact ⟨c, _, hdecode, .inl ⟨rfl, (List.prefix_iff_eq_take.1 hc).symm⟩⟩
    · exact ⟨replacement, 1, hdecode, .inr ⟨rfl, rfl, hnone⟩⟩
  · have hchars := chars_encode s.toList
    rw [← bytes_toUTF8] at hchars
    have htext : (s.toList.map fun c => (c, (utf8EncodeChar c).length)).map (·.1) = s.toList := by
      rw [List.map_map]
      exact List.map_id _
    refine ⟨?_, hchars⟩
    rw [text, hchars, htext, String.ofList_toList]

end Descent.Encoding
