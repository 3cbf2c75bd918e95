import Descent.Grammar.Lemmas
import Descent.Proofs.Likeness.Contexts
import Descent.Proofs.Text.LongestRun

/-! Literals. A literal reads the characters of a string as long as they are those of the input, and
where one differs it is back where it began. So it is the string read one character at a time and
tried as a whole; only the errors of the two are not the same. -/
namespace Descent

/-- Texts part in one of three ways: the first is a part of the second, or the second a smaller part
of the first, or behind a common part they go on with different characters. -/
theorem prefix_cases (text more : List Char) : text <+: more ∨
    (∃ e rest, text = more ++ e :: rest) ∨
      ∃ seen e rest t behind, text = seen ++ e :: rest ∧ more = seen ++ t :: behind ∧ t ≠ e := by
  induction text generalizing more with
  | nil => exact .inl List.nil_prefix
  | cons e rest ih =>
    cases more with
    | nil => exact .inr (.inl ⟨e, rest, rfl⟩)
    | cons t behind =>
      by_cases ht : t = e
      · subst ht
        obtain hprefix | ⟨e, rest, rfl⟩ | ⟨seen, e, rest, u, behind, rfl, rfl, hu⟩ := ih behind
        · exact .inl (List.cons_prefix_cons.2 ⟨rfl, hprefix⟩)
        · exact .inr (.inl ⟨e, rest, rfl⟩)
        · exact .inr (.inr ⟨t :: seen, e, rest, u, behind, rfl, rfl, hu⟩)
      · exact .inr (.inr ⟨[], e, rest, t, behind, rfl, rfl, ht⟩)

namespace Parser

section Values

variable {m : Type → Type} {C τ α β : Type} [MonadRun m]

/-- To try a parser is to run it and to return where it fails. -/
theorem attempt_apply (p : Parser m C τ α) (c : C) :
    attempt p c = do return (← p c).mapFailure (·.rewind c) := by
  unfold attempt
  congr 1
  funext r
  cases r <;> rfl

theorem map_attempt [LawfulMonad m] (p : Parser m C τ α) (f : α → β) :
    map (attempt p) f = attempt (map p f) := by
  funext c
  simp only [map, bind, attempt, bind_assoc]
  congr 1
  funext r
  cases r <;> simp [pure]

variable [Cursor C τ] [Advance m C] [Token τ]

def spell (v : α) : List Char → Parser m C τ α
  | [] => pure v
  | e :: rest => keepRight (char e) (spell v rest)

theorem map_spell [LawfulMonad m] (v : α) (f : α → β) (text : List Char) :
    map (spell v text : Parser m C τ α) f = spell (f v) text := by
  induction text with
  | nil => exact pure_bind v _
  | cons e rest ih =>
    rw [spell, spell, ← ih]
    exact map_bind _ _ _

end Values

section Holding

variable {σ C α : Type} [Cursor C Char] [Advance (Run σ) C] {c d : C} {t : Char}
  {text rest seen : List Char}
  {expected : String} {start : C} {j l : Journal σ}

open Cursor (Steps Crosses Holds current)

theorem literalRest_of_crosses (h : Crosses c j text d l) :
    (literalRest start expected seen (text ++ rest) : Parser (Run σ) C Char String) c j =
      (literalRest start expected (seen ++ text) rest : Parser (Run σ) C Char String) d l := by
  induction h generalizing seen with
  | nil => rw [List.append_nil, List.nil_append]
  | @cons c d e t text j k l ht _ ih =>
    obtain ⟨hc, hd⟩ := ht
    rw [List.cons_append, literalRest, hc]
    dsimp only
    rw [if_pos (char?_char t), Run.bind_of_ok hd, ih, List.append_assoc, List.singleton_append]

theorem spell_of_crosses (v : α) (h : Crosses c j text d l) :
    (spell v (text ++ rest) : Parser (Run σ) C Char α) c j =
      (spell v rest : Parser (Run σ) C Char α) d l := by
  induction h with
  | nil => rw [List.nil_append]
  | @cons c d e t text j k l ht _ ih =>
    have hread := charOf_of_steps (k := .only t) ht (beq_self_eq_true t)
    rw [List.cons_append, ← ih]
    exact bind_of_ok hread

theorem literal_of_crosses (h : Crosses c j expected.toList d l) :
    (literal expected : Parser (Run σ) C Char String) c j = .ok (.ok expected d, l) := by
  rw [literal, ← List.append_nil expected.toList, literalRest_of_crosses h]
  rfl

theorem spell_ok {v : α} (h : Crosses c j text d l) :
    (spell v text : Parser (Run σ) C Char α) c j = .ok (.ok v d, l) := by
  rw [← List.append_nil text, spell_of_crosses v h]
  rfl

/-- A literal that the input does not begin with fails where it began. The end of the input is
unexpected if it comes first, and otherwise the text up to the first difference. -/
theorem literal_of_not_prefix (h : Holds c j text) (hnot : ¬expected.toList <+: text) :
    ∃ unexpected l, (literal expected : Parser (Run σ) C Char String) c j =
        .ok (.fail ⟨.found (Cursor.position c) unexpected (.label (Text.quoteString expected)), c⟩,
          l) ∧
      (text <+: expected.toList ∧ text ≠ expected.toList ∧ unexpected = .endOfInput ∨
        ∃ seen e rest t more, expected.toList = seen ++ e :: rest ∧ text = seen ++ t :: more ∧
          t ≠ e ∧ unexpected = .label (Text.quoteChars (seen ++ [t]))) := by
  obtain hprefix | ⟨e, rest, htext⟩ | ⟨seen, e, rest, t, more, htext, rfl, ht⟩ :=
    prefix_cases expected.toList text
  · exact absurd hprefix hnot
  · rw [← List.append_nil text] at h
    obtain ⟨d, l, hcross, hleft⟩ := h.split
    have hend := hleft.current_eq
    refine ⟨.endOfInput, l, ?_, .inl ⟨⟨_, htext.symm⟩, ?_, rfl⟩⟩
    · rw [literal, htext, literalRest_of_crosses hcross, literalRest, hend]
      rfl
    · rw [htext]
      exact fun heq => List.cons_ne_nil e rest (List.self_eq_append_right.1 heq)
  · obtain ⟨d, l, hcross, hleft⟩ := h.split
    have hnext := hleft.current_eq
    refine ⟨_, l, ?_, .inr ⟨seen, e, rest, t, more, htext, rfl, ht, rfl⟩⟩
    rw [literal, htext, literalRest_of_crosses hcross, literalRest, hnext]
    dsimp only [List.head?_cons]
    rw [if_neg (by simpa using ht)]
    rfl

end Holding

section Standing

variable {σ C : Type} [Cursor C Char] [Advance (Run σ) C] [Steady σ C]

/-- From a cursor inside of it a literal ends as the characters do that are still to be read, but
for a failure at the place where the literal began. -/
theorem inStep_literalRest (start c : C) (expected : String) (seen rest : List Char) :
    InStep Eq ((Likeness.blind σ C Char).Replies Eq)
      (literalRest start expected seen rest c)
      (do
        let r ← (spell expected rest : Parser (Run σ) C Char String) c
        return r.mapFailure (·.rewind start)) := by
  induction rest generalizing seen c with
  | nil => exact .pure (.ok rfl rfl)
  | cons e rest ih =>
    cases hc : Cursor.current c with
    | none =>
      simp only [literalRest, spell, keepRight, bind, char, charOf, accept, hc]
      exact .pure (.fail ⟨trivial, rfl⟩)
    | some t =>
      by_cases ht : t = e
      · subst ht
        simp only [literalRest, spell, keepRight, bind, char, charOf, accept, hc, char?_char,
          Option.filter_some, CharClass.only, beq_self_eq_true, if_true, bind_assoc]
        refine (Steady.advance (hc ▸ rfl)).bind ?_
        rintro d _ rfl
        exact ih d _
      · simp only [literalRest, spell, keepRight, bind, char, charOf, accept, hc, char?_char,
          Option.filter_some, CharClass.only, beq_iff_eq, ht, if_false, Option.some.injEq]
        exact .pure (.fail ⟨trivial, rfl⟩)

/-- A literal is its characters in turn, tried as a whole, but for the errors. -/
theorem alike_literal_attempt (expected : String) :
    (Likeness.blind σ C Char).Alike Eq (literal expected : Parser (Run σ) C Char String)
      (attempt (spell expected expected.toList)) := by
  rintro c _ rfl
  rw [attempt_apply]
  exact inStep_literalRest c c expected [] expected.toList

end Standing

end Parser

namespace Grammar

variable {σ C : Type} [Cursor C Char] [Advance (Run σ) C]

def spell (v : Value) : List Char → Grammar Char
  | [] => pure v
  | e :: rest => keepRight (charOf (.only e)) (spell v rest)

theorem parser_spell (bound : Nat) (rules : String → Parser (Run σ) C Char Value) (v : Value)
    (text : List Char) : parser bound rules (spell v text) = Parser.spell v text := by
  induction text with
  | nil => rfl
  | cons e rest ih =>
    rw [spell, parser_keepRight, parser_charOf, Parser.keepRight_map, ih]
    rfl

theorem interchangeable_literal [Steady σ C] (bound : Nat) (s : String) :
    Interchangeable σ C bound (literal s) (attempt (spell (.text s) s.toList)) := by
  intro rules rules' _
  rw [parser, parser, parser_spell, ← Parser.map_spell, ← Parser.map_attempt]
  exact Likeness.alike_value (Parser.alike_literal_attempt s) fun _ => rfl

open Cursor (Holds)

/-- Literals are atomic. A literal succeeds where the input begins with it, and ends where its
characters do when they are read one by one. Otherwise it fails where it began, and says that it was
expected there: the end of the input is unexpected if the rest of the input is a smaller part of it,
and else the common part of the two with the first character that differs. So in every context, its
rules among it, a literal can stand for its characters in turn, tried as a whole: the same is read,
runs stop at the same cursor and have or have not consumed the same. -/
theorem literal_atomic [Steady σ C] (s : String) :
    (∀ (c : C) (j : Journal σ) (text : List Char), Holds c j text →
      (s.toList <+: text → ∃ d l,
        (Parser.literal s : Parser (Run σ) C Char String) c j = .ok (.ok s d, l) ∧
          (Parser.spell s s.toList : Parser (Run σ) C Char String) c j = .ok (.ok s d, l)) ∧
      (¬s.toList <+: text → ∃ unexpected l,
        (Parser.literal s : Parser (Run σ) C Char String) c j = .ok (.fail
            ⟨.found (Cursor.position c) unexpected (.label (Text.quoteString s)), c⟩, l) ∧
          (text <+: s.toList ∧ text ≠ s.toList ∧ unexpected = .endOfInput ∨
            ∃ seen e rest t more, s.toList = seen ++ e :: rest ∧ text = seen ++ t :: more ∧
              t ≠ e ∧ unexpected = .label (Text.quoteChars (seen ++ [t]))))) ∧
    ∀ (bound : Nat) (hole : String) (rules : String → Grammar Char) (g : Grammar Char) (c : C)
      (j : Journal σ),
      Run.ending c ((run (fun name => (rules name).plug hole (literal s)) bound
          (g.plug hole (literal s)) c : Run σ _) j) =
        Run.ending c ((run (fun name => (rules name).plug hole
            (attempt (spell (.text s) s.toList))) bound
          (g.plug hole (attempt (spell (.text s) s.toList))) c : Run σ _) j) := by
  refine ⟨fun c j text h => ⟨fun hprefix => ?_, Parser.literal_of_not_prefix h⟩,
    fun bound hole rules g c j => (interchangeable_literal bound s).run_ending hole rules g c j⟩
  obtain ⟨more, rfl⟩ := hprefix
  obtain ⟨d, l, hcross, -⟩ := h.split
  exact ⟨d, l, Parser.literal_of_crosses hcross, Parser.spell_ok hcross⟩

/-- `let` is read from `letter`, and from `lex` it is not. -/
theorem literal_atomic_let :
    (∃ d l, (Parser.literal "let" : Parser (Run Unit) (TokenCursor Char) Char String)
        (.ofText "letter" 4) ⟨(), [], []⟩ = .ok (.ok "let" d, l)) ∧
      ∃ unexpected l, (Parser.literal "let" : Parser (Run Unit) (TokenCursor Char) Char String)
        (.ofText "lex" 4) ⟨(), [], []⟩ = .ok (.fail
          ⟨.found .start unexpected (.label (Text.quoteString "let")), .ofText "lex" 4⟩, l) := by
  have hboth (text : String) := (literal_atomic (σ := Unit) (C := TokenCursor Char) "let").1
    (.ofText text 4) ⟨(), [], []⟩ text.toList (TokenCursor.holds_rest _ _)
  obtain ⟨d, l, hread, -⟩ := (hboth "letter").1 (by decide)
  obtain ⟨unexpected, k, hfail, -⟩ := (hboth "lex").2 (by decide)
  exact ⟨⟨d, l, hread⟩, unexpected, k, hfail⟩

end Grammar

end Descent
