import Descent.Grammar.Lemmas
import Descent.Parser.Lexeme
import Descent.Proofs.Text.Reading
import Mathlib.Data.List.Induction

/-! Blanks, names and numbers. A blank ends a name and a number, since no blank is a letter, a digit
or an underscore. Numbers are written in decimal, and zeros in front of a number do not count. -/
namespace Descent

variable {σ : Type}

namespace Text

def apart (a b : List (Nat × Nat)) : Bool :=
  a.all fun r => b.all fun s => r.2 < s.1 || s.2 < r.1

theorem holds_eq_false_of_apart {s t : CodePoints} (h : apart s.ranges t.ranges = true) {c : Char}
    (hc : s.holds c = true) : t.holds c = false := by
  obtain ⟨r, hr, hr₁, hr₂⟩ := (s.holds_iff c).1 hc
  rw [Bool.eq_false_iff]
  intro ht
  obtain ⟨u, hu, hu₁, hu₂⟩ := (t.holds_iff c).1 ht
  have hru := List.all_eq_true.1 (List.all_eq_true.1 h r hr) u hu
  simp only [Bool.or_eq_true, decide_eq_true_eq] at hru
  omega

theorem numeric_of_isDigit {c : Char} (h : c.isDigit = true) : numeric.holds c = true := by
  simp only [Char.isDigit, Bool.and_eq_true, decide_eq_true_eq] at h
  refine (numeric.holds_iff c).2 ⟨(0x30, 0x39), by simp [numeric], ?_, ?_⟩
  · exact h.1
  · exact h.2

end Text

namespace CharClass

theorem identifierPart_of_letter {c : Char} (h : letter.test c = true) :
    identifierPart.test c = true := by
  simp [identifierPart, alphanumeric, h]

theorem identifierPart_of_digit {c : Char} (h : digit.test c = true) :
    identifierPart.test c = true := by
  have hn : Text.numeric.holds c = true := Text.numeric_of_isDigit h
  simp [identifierPart, alphanumeric, hn]

/-- White space is no part of a name or a number. -/
theorem identifierPart_of_blank {c : Char} (h : blank.test c = true) :
    identifierPart.test c = false := by
  have ha : Text.alphabetic.holds c = false :=
    Text.holds_eq_false_of_apart (s := Text.blank) (by decide +kernel) h
  have hn : Text.numeric.holds c = false :=
    Text.holds_eq_false_of_apart (s := Text.blank) (by decide +kernel) h
  have hu : c ≠ '_' := by
    rintro rfl
    exact absurd h (by decide)
  simp [identifierPart, alphanumeric, letter, ha, hn, hu]

theorem blank_of_identifierPart {c : Char} (h : identifierPart.test c = true) :
    blank.test c = false := by
  cases hb : blank.test c with
  | false => rfl
  | true => exact absurd h (by rw [identifierPart_of_blank hb]; exact Bool.false_ne_true)

theorem digit_of_blank {c : Char} (h : blank.test c = true) : digit.test c = false := by
  cases hd : digit.test c with
  | false => rfl
  | true =>
    rw [blank_of_identifierPart (identifierPart_of_digit hd)] at h
    cases h

variable {k : CharClass} {c : TokenCursor Char} {t : Char}

def Next (k : CharClass) (c : TokenCursor Char) : Prop :=
  ∀ t, Cursor.current c = some t → k.test t = true

def NotNext (k : CharClass) (c : TokenCursor Char) : Prop :=
  ∀ t, Cursor.current c = some t → k.test t = false

theorem next_of_current (h : Cursor.current c = some t) (ht : k.test t = true) : k.Next c := by
  intro u hu
  obtain rfl : t = u := Option.some.inj (h.symm.trans hu)
  exact ht

theorem notNext_of_current (h : Cursor.current c = some t) (ht : k.test t = false) :
    k.NotNext c := by
  intro u hu
  obtain rfl : t = u := Option.some.inj (h.symm.trans hu)
  exact ht

theorem notNext_of_none (h : Cursor.current c = none) : k.NotNext c := by
  intro u hu
  rw [h] at hu
  cases hu

theorem Next.not_identifierPart (h : blank.Next c) : identifierPart.NotNext c :=
  fun t ht => identifierPart_of_blank (h t ht)

theorem Next.not_digit (h : blank.Next c) : digit.NotNext c :=
  fun t ht => digit_of_blank (h t ht)

end CharClass

def Blanks (text : List Char) : Prop := ∀ c ∈ text, CharClass.blank.test c = true

theorem Blanks.next {c d : TokenCursor Char} {text : List Char} (h : Blanks text)
    (hpos : 0 < text.length) (hpass : c.Passes text d) : CharClass.blank.Next c := by
  obtain ⟨b, more, rfl⟩ := List.exists_cons_of_length_pos hpos
  exact CharClass.next_of_current hpass.current_eq (h b List.mem_cons_self)

structure Name where
  first : Char
  more : List Char
  letter_first : CharClass.letter.test first = true
  part_more : ∀ c ∈ more, CharClass.identifierPart.test c = true

namespace Name

def chars (n : Name) : List Char := n.first :: n.more

def text (n : Name) : String := String.ofList n.chars

theorem blank_first (n : Name) : CharClass.blank.test n.first = false :=
  CharClass.blank_of_identifierPart (CharClass.identifierPart_of_letter n.letter_first)

def ofLetter (c : Char) (h : CharClass.letter.test c = true) : Name := ⟨c, [], h, nofun⟩

end Name

/-- How `n` is written in decimal: with or without zeros in front. -/
def Numeral (n : Nat) (text : List Char) : Prop :=
  ∃ zeros, text = List.replicate zeros '0' ++ Nat.toDigits 10 n

namespace Numeral

variable {n : Nat} {text : List Char}

theorem digitChar_of_digit {d : Char} (h : CharClass.digit.test d = true) :
    d.toNat - 48 < 10 ∧ Nat.digitChar (d.toNat - 48) = d := by
  have hd : 48 ≤ d.toNat ∧ d.toNat ≤ 57 := by
    simpa [CharClass.digit, Char.isDigit, UInt32.le_iff_toNat_le] using h
  have hlt : d.toNat - 48 < 10 := by omega
  refine ⟨hlt, Char.toNat_inj.1 ?_⟩
  rw [Nat.toNat_digitChar_of_lt_ten hlt]
  omega

theorem digit_of_mem (h : Numeral n text) : ∀ c ∈ text, CharClass.digit.test c = true := by
  obtain ⟨zeros, rfl⟩ := h
  intro c hc
  rcases List.mem_append.1 hc with hc | hc
  · rw [List.eq_of_mem_replicate hc]
    rfl
  · exact Nat.isDigit_of_mem_toDigits (by decide) (by decide) hc

theorem ne_nil (h : Numeral n text) : text ≠ [] := by
  obtain ⟨zeros, rfl⟩ := h
  exact List.append_ne_nil_of_right_ne_nil _ Nat.toDigits_ne_nil

theorem notNext {c d : TokenCursor Char} (h : Numeral n text) (hpass : c.Passes text d) :
    CharClass.blank.NotNext c := by
  have hdigits := h.digit_of_mem
  obtain ⟨b, more, rfl⟩ := List.exists_cons_of_ne_nil h.ne_nil
  exact CharClass.notNext_of_current hpass.current_eq (CharClass.blank_of_identifierPart
    (CharClass.identifierPart_of_digit (hdigits b List.mem_cons_self)))

theorem value_eq (h : Numeral n text) : Text.decimalValue text = n := by
  obtain ⟨zeros, rfl⟩ := h
  change Nat.ofDigitChars 10 _ 0 = n
  rw [Nat.ofDigitChars_append, Nat.ofDigitChars_replicate_zero, Nat.mul_zero,
    Nat.ofDigitChars_toDigits (by decide) (by decide)]

/-- Every text of digits is the numeral of its value. -/
theorem of_digits (hne : text ≠ []) (h : ∀ c ∈ text, CharClass.digit.test c = true) :
    Numeral (Text.decimalValue text) text := by
  induction text using List.reverseRecOn with
  | nil => exact absurd rfl hne
  | append_singleton text d ih =>
    obtain ⟨hlt, hchar⟩ := digitChar_of_digit (h d (by simp))
    have hdigits : Nat.toDigits 10 (d.toNat - 48) = [d] := by
      rw [Nat.toDigits_of_lt_base hlt, hchar]
    have hvalue : Text.decimalValue (text ++ [d]) =
        10 * Text.decimalValue text + (d.toNat - 48) := by
      simp [Text.decimalValue]
    rw [hvalue]
    by_cases hnil : text = []
    · subst hnil
      exact ⟨0, by simpa [Text.decimalValue] using hdigits.symm⟩
    · obtain ⟨zeros, htext⟩ := ih hnil fun c hc => h c (by simp [hc])
      rcases Nat.eq_zero_or_pos (Text.decimalValue text) with hzero | hpos
      · -- nothing but zeros came before
        refine ⟨zeros + 1, ?_⟩
        rw [hzero] at htext ⊢
        rw [htext, Nat.mul_zero, Nat.zero_add, hdigits, List.replicate_succ']
        simp
      · refine ⟨zeros, ?_⟩
        rw [← Nat.toDigits_append_toDigits (by decide) hpos hlt, hdigits, ← List.append_assoc,
          ← htext]

end Numeral

namespace Parser

variable {c d : TokenCursor Char} {text : List Char} {n : Nat}

theorem gives_many_charOf {k : CharClass} (h : c.Passes text d)
    (ht : ∀ t ∈ text, k.test t = true) (hd : k.NotNext d) (hn : text.length < n) :
    Gives (many n (charOf k) : Parser (Run σ) _ Char (List Char)) c text d := by
  refine gives_repeated_accept h ?_ (fun t hc => ?_) hn
  · refine List.map_congr_left fun t hmem => ?_
    simp [ht t hmem]
  · simp [hd t hc]

theorem gives_charOf {k : CharClass} {t : Char} (h : c.Passes [t] d) (ht : k.test t = true) :
    Gives (charOf k : Parser (Run σ) _ Char Char) c t d :=
  gives_accept h (by simp [ht]) k.label

theorem refuses_charOf {k : CharClass} (h : k.NotNext c) :
    Refuses (charOf k : Parser (Run σ) (TokenCursor Char) Char Char) c :=
  refuses_accept (fun t ht => by simp [h t ht]) k.label

/-- A name is read to its end. -/
theorem gives_identifier {name : Name} (h : c.Passes name.chars d)
    (hd : CharClass.identifierPart.NotNext d) (hn : name.chars.length ≤ n) :
    Gives (identifier n : Parser (Run σ) _ Char String) c name.text d := by
  obtain ⟨e, hfirst, hmore⟩ := h.uncons
  have hletter : Gives (expecting letter "identifier" : Parser (Run σ) _ Char Char) c
      name.first e := (gives_charOf hfirst name.letter_first).expecting _
  exact hletter.bind ((gives_many_charOf hmore name.part_more hd hn).map _)

theorem refuses_identifier (h : CharClass.letter.NotNext c) :
    Refuses (identifier n : Parser (Run σ) (TokenCursor Char) Char String) c := by
  have hletter : Refuses (letter : Parser (Run σ) (TokenCursor Char) Char Char) c :=
    refuses_charOf h
  exact (hletter.expecting _).bind _

/-- A number is read to its last digit. -/
theorem gives_natural {v : Nat} (h : c.Passes text d) (hv : Numeral v text)
    (hlimit : v < Text.naturalLimit) (hd : CharClass.digit.NotNext d) (hn : text.length ≤ n) :
    Gives (natural n : Parser (Run σ) _ Char Nat) c v d := by
  have hdigits := hv.digit_of_mem
  obtain ⟨t, more, rfl⟩ := List.exists_cons_of_ne_nil hv.ne_nil
  obtain ⟨e, hfirst, hmore⟩ := h.uncons
  have hmany : Gives (many1 n digit : Parser (Run σ) _ Char (List Char)) c (t :: more) d :=
    (gives_charOf hfirst (hdigits t List.mem_cons_self)).bind
      ((gives_many_charOf hmore (fun t ht => hdigits t (List.mem_cons_of_mem _ ht)) hd hn).map _)
  intro j
  obtain ⟨l, hl⟩ := hmany j
  refine ⟨l, ?_⟩
  rw [natural, Run.bind_of_ok hl]
  simp only [hv.value_eq, hlimit, if_true]
  rfl

theorem refuses_natural (h : CharClass.digit.NotNext c) :
    Refuses (natural n : Parser (Run σ) (TokenCursor Char) Char Nat) c := by
  have hmany : Refuses (many1 n digit : Parser (Run σ) _ Char (List Char)) c :=
    (refuses_charOf h).bind _
  intro j
  obtain ⟨f, l, hl, hf⟩ := hmany j
  refine ⟨f, l, ?_, hf⟩
  rw [natural, Run.bind_of_ok hl]
  rfl

theorem reads_charOf (k : CharClass) : Reads (charOf k : Parser (Run σ) _ Char Char)
    fun v text => text = [v] ∧ k.test v = true := by
  refine (reads_accept _ _).mono ?_
  rintro v _ ⟨t, rfl, ht⟩
  obtain ⟨rfl, hk⟩ : t = v ∧ k.test v = true := by simpa using ht
  exact ⟨rfl, hk⟩

/-- What a number was read from is its numeral. -/
theorem reads_natural (n : Nat) : Reads (natural n : Parser (Run σ) _ Char Nat)
    fun v text => Numeral v text ∧ v < Text.naturalLimit := by
  have hmany : Reads (many1 n digit : Parser (Run σ) _ Char (List Char)) fun vs text =>
      text = vs ∧ vs ≠ [] ∧ ∀ t ∈ vs, CharClass.digit.test t = true := by
    refine ((reads_charOf .digit).bind fun v =>
      ((reads_charOf .digit).repeated false n).map (v :: ·)).mono ?_
    rintro _ _ ⟨v, _, more, rfl, ⟨rfl, hv⟩, vs, rfl, hvs⟩
    obtain ⟨rfl, hmore⟩ := hvs.of_tokens
    exact ⟨rfl, List.cons_ne_nil v more, List.forall_mem_cons.2 ⟨hv, hmore⟩⟩
  intro c d v j l h
  obtain ⟨r, i, hr, h⟩ := Run.bind_eq_ok.1 h
  rcases r with ⟨digits, e⟩ | f
  · obtain ⟨_, ⟨rfl, hne, hdigits⟩, hce⟩ := hmany hr
    dsimp only at h
    split at h
    · cases h
      exact ⟨_, ⟨.of_digits hne hdigits, ‹_›⟩, hce⟩
    · cases h
  · cases h

end Parser

namespace Grammar

variable {c d : TokenCursor Char} {text : List Char} {n : Nat}
  {rules : String → Parser (Run σ) (TokenCursor Char) Char Value}

/-- All blanks are skipped. -/
theorem gives_blanks (h : c.Passes text d) (ht : Blanks text) (hd : CharClass.blank.NotNext d)
    (hn : text.length < n) : Parser.Gives (parser n rules blanks) c .unit d := by
  have hrun : Parser.Gives (parser n rules (repeated false (charOf .blank))) c
      (.list (text.map .char)) d := by
    refine (Parser.gives_repeated_accept h ?_ (fun t hc => ?_) hn).map Value.list
    · rw [List.map_map]
      refine List.map_congr_left fun t hmem => ?_
      simp [ht t hmem]
    · simp [hd t hc]
  exact hrun.map _

/-- A name is read if a blank ends it, or the end of the input. -/
theorem gives_name {name : Name} (h : c.Passes name.chars d) (hd : CharClass.blank.Next d)
    (hn : name.chars.length ≤ n) :
    Parser.Gives (parser n rules identifier) c (.text name.text) d :=
  (Parser.gives_identifier h hd.not_identifierPart hn).map Value.text

/-- No name begins at the end of the input. -/
theorem refuses_name (hc : Cursor.current c = none) :
    Parser.Refuses (parser n rules identifier) c :=
  (Parser.refuses_identifier (CharClass.notNext_of_none hc)).bind _

theorem gives_number {v : Nat} (h : c.Passes text d) (hv : Numeral v text)
    (hlimit : v < Text.naturalLimit) (hd : CharClass.blank.Next d) (hn : text.length ≤ n) :
    Parser.Gives (parser n rules natural) c (.natural v) d :=
  (Parser.gives_natural h hv hlimit hd.not_digit hn).map Value.natural

/-- A deferred rule gives what the rule stands for, one level further down. -/
theorem gives_deferredRule {rules : String → Grammar Char} {s : Supplier} {v : Value} {depth : Nat}
    (h : Parser.Gives (parser n (ruleParser rules n depth) (rules s.name) :
      Parser (Run σ) _ Char Value) c v d) :
    Parser.Gives (parser n (ruleParser rules n (depth + 1)) (deferredRule s) :
      Parser (Run σ) _ Char Value) c v d :=
  h.deferred s _

end Grammar

end Descent
