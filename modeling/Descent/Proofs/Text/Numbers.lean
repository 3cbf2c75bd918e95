import Descent.Parser.Lemmas
import Descent.Proofs.Text.Lexemes
import Descent.Proofs.Text.LongestRun

/-! Numbers in decimal, over cursors of any kind. A number is the longest run of digits that is
next, behind a sign where there may be one. What it comes to depends on the value of these digits
alone, and there may be any number of them: zeros in front do not count, and a number out of range
is read to its end before it is complained of. -/
namespace Descent

variable {σ C ν : Type} [Cursor C Char] {value : Nat → ν} {fits : ν → Prop}
  {complaint : List Char → String} {b c d : C} {text digits rest : List Char} {sign : Option Char}
  {v n : Nat} {i j l m : Journal σ}

open Cursor (Holds)
open CharClass (LongestRun AtMostOne Absent)

namespace Parser

/-- What a number that began at `c` comes to when its digits end at `d`. Where there are none, one
is expected; and a number that does not fit is complained of where it began. -/
inductive Decimal (value : Nat → ν) (fits : ν → Prop) (complaint : List Char → String) (c d : C) :
    List Char → Reply C Char ν → Prop where
  | missing : Decimal value fits complaint c d [] (.fail (mismatch "digit" d))
  | inRange {v : Nat} {digits : List Char} (h : Numeral v digits) (hfits : fits (value v)) :
    Decimal value fits complaint c d digits (.ok (value v) d)
  | outOfRange {v : Nat} {digits : List Char} (h : Numeral v digits) (hfits : ¬fits (value v)) :
    Decimal value fits complaint c d digits
      (.fail ⟨.message (Cursor.position c) (complaint digits), d⟩)

def signed (sign : Option Char) (v : Nat) : Int := if sign = some '-' then -(v : Int) else v

def tooLarge (digits : List Char) : String := "number too large: " ++ String.ofList digits

def outOfRange (sign : Option Char) (digits : List Char) : String :=
  "number out of range: " ++ String.ofList (sign.toList ++ digits)

theorem exists_decimal (value : Nat → ν) (fits : ν → Prop) (complaint : List Char → String)
    (c d : C) (h : ∀ t ∈ digits, CharClass.digit.test t = true) :
    ∃ r, Decimal value fits complaint c d digits r := by
  by_cases hnil : digits = []
  · subst hnil
    exact ⟨_, .missing⟩
  · by_cases hfits : fits (value (Text.decimalValue digits))
    · exact ⟨_, .inRange (.of_digits hnil h) hfits⟩
    · exact ⟨_, .outOfRange (.of_digits hnil h) hfits⟩

section Digits

variable [DecidablePred fits]

def conclude (value : Nat → ν) (fits : ν → Prop) [DecidablePred fits]
    (complaint : List Char → String) (c : C) (digits : List Char) : Parser (Run σ) C Char ν :=
  fun d =>
    let w := value (Text.decimalValue digits)
    if fits w then return .ok w d
    else return .fail ⟨.message (Cursor.position c) (complaint digits), d⟩

theorem conclude_of_numeral (h : Numeral v digits) (d : C) (j : Journal σ) :
    conclude value fits complaint c digits d j =
      .ok (if fits (value v) then .ok (value v) d
        else .fail ⟨.message (Cursor.position c) (complaint digits), d⟩, j) := by
  rw [conclude, h.value_eq]
  split <;> rfl

variable [Advance (Run σ) C]

/-- Digits are read to the last one, and then they are a number. -/
theorem digits_end_iff {r : Reply C Char ν} :
    bind (many1 n digit) (conclude value fits complaint c) b j = .ok (r, m) ↔
      ∃ digits d, digits.length ≤ n ∧ LongestRun .digit b j digits d m ∧
        Decimal value fits complaint c d digits r := by
  constructor
  · intro h
    obtain ⟨s, i, hs, hr⟩ := Run.bind_eq_ok.1 h
    obtain ⟨digits, d, hn, hrun, rfl⟩ := many1_charOf_iff.1 hs
    by_cases hnil : digits = []
    · subst hnil
      cases hr
      exact ⟨[], d, hn, hrun, .missing⟩
    · have hnumeral := Numeral.of_digits hnil hrun.test_of_mem
      rw [if_neg hnil] at hr
      dsimp only at hr
      rw [conclude_of_numeral hnumeral] at hr
      split at hr
      · cases hr
        exact ⟨digits, d, hn, hrun, .inRange hnumeral ‹_›⟩
      · cases hr
        exact ⟨digits, d, hn, hrun, .outOfRange hnumeral ‹_›⟩
  · rintro ⟨digits, d, hn, hrun, hdecimal⟩
    have hread := many1_charOf_iff.2 ⟨digits, d, hn, hrun, rfl⟩
    cases hdecimal with
    | missing => exact bind_of_fail hread
    | inRange h hfits =>
      rw [if_neg h.ne_nil] at hread
      rw [digit, bind_of_ok hread, conclude_of_numeral h, if_pos hfits]
    | outOfRange h hfits =>
      rw [if_neg h.ne_nil] at hread
      rw [digit, bind_of_ok hread, conclude_of_numeral h, if_neg hfits]

end Digits

variable [Advance (Run σ) C]

section Readings

theorem natural_eq (n : Nat) (c : C) : (natural n : Parser (Run σ) C Char Nat) c =
    bind (many1 n digit) (conclude (fun v => v) (· < Text.naturalLimit) tooLarge c) c := by
  apply congrArg (many1 n digit c >>= ·)
  funext r
  cases r <;> rfl

theorem integer_eq (n : Nat) (c : C) : (integer n : Parser (Run σ) C Char Int) c =
    bind (optional (charOf .sign)) (fun sign => bind (many1 n digit)
      (conclude (signed sign) (fun z => -Text.integerLimit ≤ z ∧ z < Text.integerLimit)
        (outOfRange sign) c)) c := by
  have hboth : (integer n : Parser (Run σ) C Char Int) c =
      bind (both (optional (charOf .sign)) (many1 n digit)) (fun (sign, digits) =>
        conclude (signed sign) (fun z => -Text.integerLimit ≤ z ∧ z < Text.integerLimit)
          (outOfRange sign) c digits) c := by
    apply congrArg (both (optional (charOf .sign)) (many1 n digit) c >>= ·)
    funext r
    cases r <;> rfl
  rw [hboth, both, bind_bind]
  simp only [bind_map]

theorem natural_ends_iff {r : Reply C Char Nat} :
    (natural n : Parser (Run σ) C Char Nat) c j = .ok (r, m) ↔
      ∃ digits d, digits.length ≤ n ∧ LongestRun .digit c j digits d m ∧
        Decimal (fun v => v) (· < Text.naturalLimit) tooLarge c d digits r := by
  rw [natural_eq, digits_end_iff]

/-- An integer is read like a natural, behind a sign that may be missing. -/
theorem integer_ends_iff {r : Reply C Char Int} :
    (integer n : Parser (Run σ) C Char Int) c j = .ok (r, m) ↔
      ∃ sign b i digits d, CharClass.sign.AtMostOne c j sign b i ∧ digits.length ≤ n ∧
        LongestRun .digit b i digits d m ∧
        Decimal (signed sign) (fun z => -Text.integerLimit ≤ z ∧ z < Text.integerLimit)
          (outOfRange sign) c d digits r := by
  rw [integer_eq, bind_ends_iff]
  simp only [optional_charOf_iff, digits_end_iff]
  constructor
  · rintro (⟨f, ⟨_, _, _, ⟨⟩⟩, -⟩ | ⟨sign, b, i, ⟨_, _, hsign, ⟨⟩⟩, digits, d, hread⟩)
    exact ⟨sign, b, i, digits, d, hsign, hread⟩
  · rintro ⟨sign, b, i, digits, d, hsign, hread⟩
    exact .inr ⟨sign, b, i, ⟨sign, b, hsign, rfl⟩, digits, d, hread⟩

/-- Where no digit is next one is expected there, and nothing is consumed. -/
theorem natural_of_absent (h : CharClass.digit.Absent c) (n : Nat) :
    (natural n : Parser (Run σ) C Char Nat) c j = .ok (.fail (mismatch "digit" c), j) :=
  natural_ends_iff.2 ⟨[], c, Nat.zero_le n, .nil h j, .missing⟩

theorem integer_of_absent (hsign : CharClass.sign.AtMostOne c j sign b i)
    (h : CharClass.digit.Absent b) (n : Nat) :
    (integer n : Parser (Run σ) C Char Int) c j = .ok (.fail (mismatch "digit" b), i) :=
  integer_ends_iff.2 ⟨sign, b, i, [], b, hsign, Nat.zero_le n, .nil h i, .missing⟩

end Readings

section Texts

/-- Digits that end where the input goes on with something else are read as they are written. -/
theorem natural_of_holds (h : Holds c j (digits ++ rest)) (hv : Numeral v digits)
    (hrest : ∀ t ∈ rest.head?, CharClass.digit.test t = false) (hlimit : v < Text.naturalLimit) :
    ∃ d m, Holds d m rest ∧ ∀ n, digits.length ≤ n →
      (natural n : Parser (Run σ) C Char Nat) c j = .ok (.ok v d, m) := by
  obtain ⟨d, m, hrun, hleft⟩ := CharClass.longestRun_of_holds h hv.digit_of_mem hrest
  refine ⟨d, m, hleft, fun n hn => ?_⟩
  exact natural_ends_iff.2 ⟨digits, d, hn, hrun, .inRange hv hlimit⟩

theorem integer_of_holds (hsign : CharClass.sign.AtMostOne c j sign b i)
    (h : Holds b i (digits ++ rest)) (hv : Numeral v digits)
    (hrest : ∀ t ∈ rest.head?, CharClass.digit.test t = false)
    (hlimit : -Text.integerLimit ≤ signed sign v ∧ signed sign v < Text.integerLimit) :
    ∃ d m, Holds d m rest ∧ ∀ n, digits.length ≤ n →
      (integer n : Parser (Run σ) C Char Int) c j = .ok (.ok (signed sign v) d, m) := by
  obtain ⟨d, m, hrun, hleft⟩ := CharClass.longestRun_of_holds h hv.digit_of_mem hrest
  refine ⟨d, m, hleft, fun n hn => ?_⟩
  exact integer_ends_iff.2 ⟨sign, b, i, digits, d, hsign, hn, hrun, .inRange hv hlimit⟩

/-- At most one sign begins an input. -/
theorem exists_sign (h : Holds c j text) : ∃ sign b i more, CharClass.sign.AtMostOne c j sign b i ∧
    Holds b i more ∧ text = sign.toList ++ more := by
  by_cases habsent : CharClass.sign.Absent c
  · exact ⟨none, c, j, text, .none habsent, h, rfl⟩
  · obtain ⟨hc, rfl⟩ | ⟨t, d, k, more, ht, hmore, rfl⟩ := h.nil_or_cons
    · simp [Absent, hc] at habsent
    · have htest : CharClass.sign.test t = true := by
        simpa [Absent, ht.1] using habsent
      exact ⟨some t, d, k, more, .one ht htest, hmore, rfl⟩

/-- With room for all that is left of the input there is an answer. -/
theorem exists_natural (h : Holds c j text) : ∃ r m, ∀ n, text.length ≤ n →
    (natural n : Parser (Run σ) C Char Nat) c j = .ok (r, m) := by
  obtain ⟨d, m, hrun, -⟩ := CharClass.exists_longestRun .digit h
  obtain ⟨r, hr⟩ := exists_decimal (fun v => v) (· < Text.naturalLimit) tooLarge c d
    hrun.test_of_mem
  refine ⟨r, m, fun n hn => natural_ends_iff.2 ⟨_, d, ?_, hrun, hr⟩⟩
  exact Nat.le_trans (List.takeWhile_prefix _).length_le hn

theorem exists_integer (h : Holds c j text) : ∃ r m, ∀ n, text.length ≤ n →
    (integer n : Parser (Run σ) C Char Int) c j = .ok (r, m) := by
  obtain ⟨sign, b, i, more, hsign, hmore, rfl⟩ := exists_sign h
  obtain ⟨d, m, hrun, -⟩ := CharClass.exists_longestRun .digit hmore
  obtain ⟨r, hr⟩ := exists_decimal (signed sign)
    (fun z => -Text.integerLimit ≤ z ∧ z < Text.integerLimit) (outOfRange sign) c d
    hrun.test_of_mem
  refine ⟨r, m, fun n hn => integer_ends_iff.2 ⟨sign, b, i, _, d, hsign, ?_, hrun, hr⟩⟩
  have hdigits := (List.takeWhile_prefix (l := more) CharClass.digit.test).length_le
  rw [List.length_append] at hn
  omega

theorem numeral_toString (v : Nat) : Numeral v (toString v).toList := ⟨0, by simp⟩

/-- An integer in decimal is its size in decimal, with a minus in front when it is negative. -/
theorem toList_toString (z : Int) :
    (toString z).toList = (if z < 0 then ['-'] else []) ++ (toString z.natAbs).toList := by
  cases z with
  | ofNat v => rfl
  | negSucc v => simp [toString, Int.repr]

/-- No sign is in front of a number that begins with a digit. -/
theorem absent_sign_of_numeral (h : Holds c j (digits ++ rest)) (hv : Numeral v digits) :
    CharClass.sign.Absent c := by
  obtain ⟨t, more, rfl⟩ := List.exists_cons_of_ne_nil hv.ne_nil
  have hdigit : CharClass.digit.test t = true := hv.digit_of_mem t List.mem_cons_self
  intro u hu
  obtain rfl : t = u := Option.some.inj (h.current_eq.symm.trans hu)
  cases hsign : CharClass.sign.test t with
  | false => rfl
  | true =>
    obtain rfl | rfl : t = '-' ∨ t = '+' := by simpa [CharClass.sign] using hsign
    · exact absurd hdigit (by decide)
    · exact absurd hdigit (by decide)

/-- An integer that fits is read from its text. -/
theorem integer_of_toString {z : Int} (h : Holds c j ((toString z).toList ++ rest))
    (hrest : ∀ t ∈ rest.head?, CharClass.digit.test t = false)
    (hlimit : -Text.integerLimit ≤ z ∧ z < Text.integerLimit) :
    ∃ d m, Holds d m rest ∧ ∀ n, (toString z).length ≤ n →
      (integer n : Parser (Run σ) C Char Int) c j = .ok (.ok z d, m) := by
  have hsize := numeral_toString z.natAbs
  simp only [← String.length_toList, toList_toString] at h ⊢
  by_cases hneg : z < 0
  · have hz : signed (some '-') z.natAbs = z := by
      simp only [signed, if_true]
      omega
    rw [if_pos hneg] at h ⊢
    obtain ⟨-, hnil⟩ | ⟨t, b, i, more, ht, hmore, htext⟩ := h.nil_or_cons
    · cases hnil
    · cases htext
      obtain ⟨d, m, hleft, hread⟩ := integer_of_holds (.one ht rfl) hmore hsize hrest (by rwa [hz])
      refine ⟨d, m, hleft, fun n hn => ?_⟩
      rw [hread n (Nat.le_of_succ_le hn), hz]
  · have hz : signed none z.natAbs = z := by
      simp only [signed, reduceCtorEq, if_false]
      omega
    rw [if_neg hneg] at h ⊢
    have hnone := absent_sign_of_numeral h hsize
    obtain ⟨d, m, hleft, hread⟩ := integer_of_holds (.none hnone) h hsize hrest (by rwa [hz])
    refine ⟨d, m, hleft, fun n hn => ?_⟩
    rw [hread n hn, hz]

end Texts

/-- How numbers are read. A natural is what the longest run of digits comes to: their value below
`2 ^ 64`, or else a complaint of where the number began, with all its digits read. An integer is the
same behind at most one sign, and is from `-2 ^ 63` to `2 ^ 63 - 1`. Where no digit is next one is
expected there, which is behind the sign if there is one. `n` bounds the number of digits, and with
room for what is left of the input there is an answer. So the text of every number that fits is read
as that number, if no more digits follow, and what follows is left. -/
theorem numbers_in_decimal (c : C) (j : Journal σ) :
    (∀ n r m, (natural n : Parser (Run σ) C Char Nat) c j = .ok (r, m) ↔
      ∃ digits d, digits.length ≤ n ∧ LongestRun .digit c j digits d m ∧
        Decimal (fun v => v) (· < Text.naturalLimit) tooLarge c d digits r) ∧
    (∀ n r m, (integer n : Parser (Run σ) C Char Int) c j = .ok (r, m) ↔
      ∃ sign b i digits d, AtMostOne .sign c j sign b i ∧ digits.length ≤ n ∧
        LongestRun .digit b i digits d m ∧
        Decimal (signed sign) (fun z => -Text.integerLimit ≤ z ∧ z < Text.integerLimit)
          (outOfRange sign) c d digits r) ∧
    (∀ n, Absent .digit c →
      (natural n : Parser (Run σ) C Char Nat) c j = .ok (.fail (mismatch "digit" c), j)) ∧
    (∀ n sign b i, AtMostOne .sign c j sign b i → Absent .digit b →
      (integer n : Parser (Run σ) C Char Int) c j = .ok (.fail (mismatch "digit" b), i)) ∧
    (∀ text, Holds c j text →
      (∃ d l, LongestRun .digit c j (text.takeWhile CharClass.digit.test) d l ∧
        Holds d l (text.dropWhile CharClass.digit.test)) ∧
      (∃ r m, ∀ n, text.length ≤ n →
        (natural n : Parser (Run σ) C Char Nat) c j = .ok (r, m)) ∧
      ∃ r m, ∀ n, text.length ≤ n →
        (integer n : Parser (Run σ) C Char Int) c j = .ok (r, m)) ∧
    (∀ v rest, v < Text.naturalLimit → (∀ t ∈ rest.head?, CharClass.digit.test t = false) →
      Holds c j ((toString v).toList ++ rest) →
      ∃ d m, Holds d m rest ∧ ∀ n, (toString v).length ≤ n →
        (natural n : Parser (Run σ) C Char Nat) c j = .ok (.ok v d, m)) ∧
    ∀ z rest, -Text.integerLimit ≤ z ∧ z < Text.integerLimit →
      (∀ t ∈ rest.head?, CharClass.digit.test t = false) →
      Holds c j ((toString z).toList ++ rest) →
      ∃ d m, Holds d m rest ∧ ∀ n, (toString z).length ≤ n →
        (integer n : Parser (Run σ) C Char Int) c j = .ok (.ok z d, m) := by
  refine ⟨fun n r m => natural_ends_iff, fun n r m => integer_ends_iff,
    fun n h => natural_of_absent h n, fun n sign b i hsign h => integer_of_absent hsign h n,
    fun text h => ⟨?_, ?_, ?_⟩, fun v rest hlimit hrest h => ?_, fun z rest hlimit hrest h => ?_⟩
  · exact CharClass.exists_longestRun .digit h
  · exact exists_natural h
  · exact exists_integer h
  · rw [← String.length_toList]
    exact natural_of_holds h (numeral_toString v) hrest hlimit
  · exact integer_of_toString h hrest hlimit

/-- The least integer is read from its text, though its size is no integer. -/
theorem numbers_in_decimal_least : ∃ d m, Holds d m [';'] ∧ ∀ n, 20 ≤ n →
    (integer n : Parser (Run Unit) (TokenCursor Char) Char Int)
      (TokenCursor.ofText "-9223372036854775808;" 4) ⟨(), [], []⟩ =
      .ok (.ok (-9223372036854775808) d, m) := by
  obtain ⟨-, -, -, -, -, -, hround⟩ := numbers_in_decimal
    (TokenCursor.ofText "-9223372036854775808;" 4) (⟨(), [], []⟩ : Journal Unit)
  have htext : (TokenCursor.ofText "-9223372036854775808;" 4).rest =
      (toString (-9223372036854775808 : Int)).toList ++ [';'] := rfl
  have hheld :=
    (TokenCursor.ofText "-9223372036854775808;" 4).holds_rest (⟨(), [], []⟩ : Journal Unit)
  rw [htext] at hheld
  have hrest : ∀ t ∈ [';'].head?, CharClass.digit.test t = false := by
    rintro _ ⟨⟩
    rfl
  exact hround (-9223372036854775808) [';'] (by decide) hrest hheld

end Parser

end Descent
