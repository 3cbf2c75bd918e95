import Descent.Proofs.Text.Columns

/-! Programs of folded lines: a statement begins in the first column, and its numbers stand further
right, on the line of its name or on the lines below. However a program is laid out, it is read
back to the end of the input. -/
namespace Descent

variable {σ : Type}

structure Statement where
  name : Name
  numbers : List (Fin Text.naturalLimit)

namespace Statement

def value (s : Statement) : Value :=
  .pair (.text s.name.text) (.list (s.numbers.map fun n => .natural n))

/-- The text of numbers, each behind white space that does not end a line. -/
inductive Operands : List (Fin Text.naturalLimit) → List Char → Prop where
  | nil : Operands [] []
  | cons {n : Fin Text.naturalLimit} {more : List (Fin Text.naturalLimit)}
      {gap digits rest : List Char} (hgap : Spacing gap) (hn : Numeral n digits)
      (h : Operands more rest) : Operands (n :: more) (gap ++ (digits ++ rest))

/-- The text of statements, each of which is ended by a line break. -/
inductive Lines : List Statement → List Char → Prop where
  | nil : Lines [] []
  | cons {s : Statement} {more : List Statement} {text gap rest : List Char}
      (h : Operands s.numbers text) (hgap : LineBreak 0 gap) (hmore : Lines more rest) :
      Lines (s :: more) (s.name.chars ++ (text ++ (gap ++ rest)))

/-- The text of a program: white space, or statements that begin in the first column. -/
inductive Laid : List Statement → List Char → Prop where
  | none {text : List Char} (h : Blanks text) : Laid [] text
  | lines {statements : List Statement} {lead text : List Char} (hlead : Lead 0 lead)
      (h : Lines statements text) : Laid statements (lead ++ text)

def print (s : Statement) : List Char :=
  s.name.chars ++ ((s.numbers.flatMap fun n => '\n' :: ' ' :: Nat.toDigits 10 n) ++ ['\n'])

theorem operands_print (numbers : List (Fin Text.naturalLimit)) :
    Operands numbers (numbers.flatMap fun n => '\n' :: ' ' :: Nat.toDigits 10 n) := by
  induction numbers with
  | nil => exact .nil
  | cons n more ih =>
    have hgap : Spacing ['\n', ' '] :=
      ⟨['\n'], ' ', List.forall_mem_singleton.2 rfl, rfl, by decide, rfl⟩
    exact .cons hgap ⟨0, rfl⟩ ih

theorem lines_print (statements : List Statement) :
    Lines statements (statements.flatMap print) := by
  induction statements with
  | nil => exact .nil
  | cons s more ih =>
    have hgap : LineBreak 0 ['\n'] := ⟨[], List.forall_mem_nil _, rfl⟩
    have h := Lines.cons (operands_print s.numbers) hgap ih
    simpa [print] using h

variable {numbers : List (Fin Text.naturalLimit)} {text : List Char} {c d : TokenCursor Char}

/-- A blank stands behind a name, if one stands behind its numbers. -/
theorem Operands.next (h : Operands numbers text) (hpass : c.Passes text d)
    (hd : CharClass.blank.Next d) : CharClass.blank.Next c := by
  cases h with
  | nil =>
    obtain rfl := hpass.eq_nil
    exact hd
  | cons hgap =>
    obtain ⟨e, hpass, -⟩ := hpass.split
    exact hgap.blanks.next hgap.length_pos hpass

/-- A statement, or nothing, stands behind a line break. -/
theorem Lines.notNext {statements : List Statement} (h : Lines statements text)
    (hpass : c.Passes text d) (hd : Cursor.current d = none) : CharClass.blank.NotNext c := by
  cases h with
  | nil => exact CharClass.notNext_of_none (hpass.eq_nil ▸ hd)
  | @cons s _ _ _ _ _ _ _ => exact CharClass.notNext_of_current hpass.current_eq s.name.blank_first

end Statement

namespace Grammar

def statement : Grammar Char :=
  lineFold blanks fun fold => both identifier (repeated false (keepRight fold natural))

def program : Grammar Char :=
  keepLeft (keepRight blanks (repeated false (keepLeft (unindented (pure .unit) statement) blanks)))
    endOfInput

open Statement

variable {rules : String → Parser (Run σ) (TokenCursor Char) Char Value} {bound tab n : Nat}
  {reference : Level} {gap text : List Char} {c d e : TokenCursor Char}

section Fold

/-- A fold goes on behind white space, further right than it began. -/
theorem gives_fold (hgap : Blanks gap) (hpass : c.Passes gap d) (hd : CharClass.blank.NotNext d)
    (hbound : gap.length < bound) (h : reference.column < (Cursor.level d).column) :
    Parser.Gives (parser bound rules (attempt (guardLevel blanks .gt reference))) c
      (.level (Cursor.level d)) d := by
  have hcheck : Parser.Gives (Parser.checkLevel .gt reference : Parser (Run σ) _ Char Level) d
      (Cursor.level d) d := Parser.gives_checkLevel (decide_eq_true h)
  exact (((gives_blanks hpass hgap hd hbound).keepRight hcheck).map Value.level).attempt

/-- A fold ends before a token that does not stand further right, and the white space in front of
that token is given back. -/
theorem refuses_fold (hgap : Blanks gap) (hpass : c.Passes gap d) (hd : CharClass.blank.NotNext d)
    (hbound : gap.length < bound) (h : (Cursor.level d).column ≤ reference.column) :
    Parser.Refuses (parser bound rules (attempt (guardLevel blanks .gt reference))) c := by
  have hcheck : Parser.Refuses (Parser.checkLevel .gt reference : Parser (Run σ) _ Char Level) d :=
    Parser.refuses_checkLevel (decide_eq_false (Nat.not_lt.2 h))
  exact (((gives_blanks hpass hgap hd hbound).fails_bind hcheck.fails).bind _).attempt

/-- The numbers of a statement are read, and the line break behind them is not. -/
theorem gives_operands {numbers : List (Fin Text.naturalLimit)} (h : Operands numbers text)
    (hpass : c.Passes text d) (hgap : LineBreak 0 gap) (hend : d.Passes gap e)
    (he : CharClass.blank.NotNext e) (hrule : c.rule = Position.nextChar tab)
    (hcolumn : 1 ≤ (Cursor.level c).column) (hbound : c.rest.length < bound)
    (hn : text.length < n) :
    Parser.Gives (Parser.repeated false
        (parser bound rules (keepRight (attempt (guardLevel blanks .gt .first)) natural)) n)
      c (numbers.map fun n => .natural n) d := by
  have hrule' : d.rule = Position.nextChar tab := hpass.rule_eq.trans hrule
  have hbehind := hgap.blanks.next hgap.length_pos hend
  induction h generalizing c n with
  | nil =>
    obtain ⟨n, rfl⟩ := Nat.exists_eq_add_one.2 (Nat.zero_lt_of_lt hn)
    obtain rfl := hpass.eq_nil
    have hfold : Parser.Refuses (parser bound rules (attempt (guardLevel blanks .gt .first))) d :=
      refuses_fold hgap.blanks hend he (hend.text_lt hbound)
        (Nat.le_of_eq (hgap.column_eq hend hrule))
    exact (hfold.bind _).repeated false n
  | @cons m more gap digits rest hspacing hm h ih =>
    obtain ⟨n, rfl⟩ := Nat.exists_eq_add_one.2 (Nat.zero_lt_of_lt hn)
    obtain ⟨number, hc, hline⟩ := hpass.split
    obtain ⟨c', hdigits, hrest⟩ := hline.split
    have hright := hspacing.one_lt_column hc hrule hcolumn
    have hrule₁ : number.rule = Position.nextChar tab := hc.rule_eq.trans hrule
    have hbound₁ := hc.rest_lt hbound
    have hfold : Parser.Gives (parser bound rules (attempt (guardLevel blanks .gt .first))) c
        (.level (Cursor.level number)) number :=
      gives_fold hspacing.blanks hc (hm.notNext hdigits) (hc.text_lt hbound) hright
    have hnumber : Parser.Gives (parser bound rules natural) number (.natural m) c' :=
      gives_number hdigits hm m.isLt (h.next hrest hbehind)
        (Nat.le_of_lt (hdigits.text_lt hbound₁))
    have hcolumn₂ := hdigits.one_le_column hrule₁ (Nat.le_of_lt hright)
    have hpos := hspacing.length_pos
    simp only [List.length_append] at hn
    exact (hfold.keepRight hnumber).repeated (ih hrest (hdigits.rule_eq.trans hrule₁) hcolumn₂
      (hdigits.rest_lt hbound₁) (by omega))

end Fold

section Lines

/-- A statement is read to its last number, if it begins in the first column. -/
theorem gives_statement {s : Statement} (hname : c.Passes s.name.chars d)
    (h : Operands s.numbers text) (htext : d.Passes text e) (hgap : LineBreak 0 gap)
    {line : TokenCursor Char} (hend : e.Passes gap line) (hline : CharClass.blank.NotNext line)
    (hrule : c.rule = Position.nextChar tab) (hcolumn : (Cursor.level c).column = 1)
    (hbound : c.rest.length < bound) :
    Parser.Gives (parser bound rules (unindented (pure .unit) statement)) c s.value e := by
  have hlevel : Cursor.level c = .first := congrArg Level.mk hcolumn
  have hguard : Parser.Gives (Parser.guardLevel (parser bound rules (pure .unit)) .eq .first) c
      (Cursor.level c) c :=
    (Parser.gives_pure Value.unit c).keepRight (Parser.gives_checkLevel (by rw [hlevel]; rfl))
  have hblanks : Parser.Gives (parser bound rules blanks) c .unit c :=
    gives_blanks (.refl c) (List.forall_mem_nil _)
      (CharClass.notNext_of_current hname.current_eq s.name.blank_first) (Nat.zero_lt_of_lt hbound)
  have hbehind := h.next htext (hgap.blanks.next hgap.length_pos hend)
  have hident : Parser.Gives (parser bound rules identifier) c (.text s.name.text) d :=
    gives_name hname hbehind (Nat.le_of_lt (hname.text_lt hbound))
  have hbound' := hname.rest_lt hbound
  rw [parser_unindented]
  refine hguard.keepRight ?_
  rw [statement, parser_lineFold]
  refine hblanks.keepRight ((Parser.gives_level c).bind ?_)
  rw [hlevel, parser_both]
  refine (hident.both (Parser.Gives.map ?_ Value.list)).map _
  exact gives_operands h htext hgap hend hline (hname.rule_eq.trans hrule)
    (hname.one_le_column hrule (Nat.le_of_eq hcolumn.symm)) hbound' (htext.text_lt hbound')

/-- At the end of the input there is no further statement. -/
theorem refuses_statement (hc : Cursor.current c = none) (hbound : 0 < bound) :
    Parser.Refuses (parser bound rules (unindented (pure .unit) statement)) c := by
  have hblanks : Parser.Gives (parser bound rules blanks) c .unit c :=
    gives_blanks (.refl c) (List.forall_mem_nil _) (CharClass.notNext_of_none hc) hbound
  have hident : Parser.Refuses (parser bound rules identifier) c := refuses_name hc
  rw [parser_unindented]
  cases hlevel : Relation.satisfies .eq .first (Cursor.level c) with
  | false =>
    have hcheck : Parser.Refuses (Parser.checkLevel .eq .first : Parser (Run σ) _ Char Level) c :=
      Parser.refuses_checkLevel hlevel
    exact ((Parser.gives_pure Value.unit c).refuses_bind hcheck).bind _
  | true =>
    have hguard : Parser.Gives (Parser.guardLevel (parser bound rules (pure .unit)) .eq .first) c
        (Cursor.level c) c :=
      (Parser.gives_pure Value.unit c).keepRight (Parser.gives_checkLevel hlevel)
    refine hguard.refuses_bind ?_
    rw [statement, parser_lineFold]
    refine hblanks.refuses_bind ((Parser.gives_level c).refuses_bind ?_)
    rw [parser_both]
    exact (hident.bind _).bind _

/-- The end of the input ends the statements, in whatever column. -/
theorem gives_no_lines (hc : Cursor.current c = none) (hbound : 0 < bound) (hn : 0 < n) :
    Parser.Gives (Parser.repeated false
      (parser bound rules (keepLeft (unindented (pure .unit) statement) blanks)) n) c [] c := by
  obtain ⟨n, rfl⟩ := Nat.exists_eq_add_one.2 hn
  exact ((refuses_statement hc hbound).bind _).repeated false n

/-- Statements are read one after the other, with the line breaks behind them. -/
theorem gives_lines {statements : List Statement} (h : Lines statements text)
    (hpass : c.Passes text d) (hd : Cursor.current d = none)
    (hrule : c.rule = Position.nextChar tab) (hcolumn : (Cursor.level c).column = 1)
    (hbound : c.rest.length < bound) (hn : text.length < n) :
    Parser.Gives (Parser.repeated false
        (parser bound rules (keepLeft (unindented (pure .unit) statement) blanks)) n)
      c (statements.map value) d := by
  induction h generalizing c n with
  | nil =>
    obtain rfl := hpass.eq_nil
    exact gives_no_lines hd (Nat.zero_lt_of_lt hbound) hn
  | @cons s more text gap rest h hgap hmore ih =>
    obtain ⟨n, rfl⟩ := Nat.exists_eq_add_one.2 (Nat.zero_lt_of_lt hn)
    obtain ⟨c', hname, hpass⟩ := hpass.split
    obtain ⟨e, htext, hpass⟩ := hpass.split
    obtain ⟨line, hend, hrest⟩ := hpass.split
    have hline := hmore.notNext hrest hd
    have hrule' : e.rule = Position.nextChar tab :=
      htext.rule_eq.trans (hname.rule_eq.trans hrule)
    have hbound' := htext.rest_lt (hname.rest_lt hbound)
    have hpos := hgap.length_pos
    simp only [List.length_append] at hn
    have hstatement : Parser.Gives (parser bound rules (unindented (pure .unit) statement)) c
        s.value e :=
      gives_statement hname h htext hgap hend hline hrule hcolumn hbound
    have hblanks : Parser.Gives (parser bound rules blanks) e .unit line :=
      gives_blanks hend hgap.blanks hline (hend.text_lt hbound')
    exact (hstatement.keepLeft hblanks).repeated (ih hrest (hend.rule_eq.trans hrule')
      (hgap.column_eq hend hrule') (hend.rest_lt hbound') (by omega))

/-- White space, statements, and the end of the input. -/
theorem gives_program {vs : List Value} (hgap : Blanks gap) (hc : c.Passes gap d)
    (hd : CharClass.blank.NotNext d) (hbound : c.rest.length < bound) (he : Cursor.current e = none)
    (h : Parser.Gives (Parser.repeated false
      (parser bound rules (keepLeft (unindented (pure .unit) statement) blanks)) bound) d vs e) :
    Parser.Gives (parser bound rules program) c (.list vs) e := by
  have hblanks : Parser.Gives (parser bound rules blanks) c .unit d :=
    gives_blanks hc hgap hd (hc.text_lt hbound)
  have hend : Parser.Gives (parser bound rules endOfInput) e .unit e :=
    (Parser.gives_endOfInput he).map _
  exact (hblanks.keepRight (h.map Value.list)).keepLeft hend

theorem gives_laid {statements : List Statement} (h : Laid statements text)
    (hpass : c.Passes text d) (hd : Cursor.current d = none)
    (hrule : c.rule = Position.nextChar tab) (hstart : c.position = .start)
    (hbound : c.rest.length < bound) :
    Parser.Gives (parser bound rules program) c (.list (statements.map value)) d := by
  cases h with
  | none h =>
    have hpos := Nat.zero_lt_of_lt hbound
    exact gives_program h hpass (CharClass.notNext_of_none hd) hbound hd
      (gives_no_lines hd hpos hpos)
  | lines hlead h =>
    obtain ⟨line, hc, htext⟩ := hpass.split
    have hlength := hc.rest_lt hbound
    exact gives_program hlead.blanks hc (h.notNext htext hd) hbound hd
      (gives_lines h htext hd (hc.rule_eq.trans hrule) (hlead.column_eq hc hrule hstart) hlength
        (htext.text_lt hlength))

end Lines

/-- A program is read back from any layout of it, and all of the text is read. -/
theorem program_roundTrip {statements : List Statement} {source : String}
    (h : Laid statements source.toList) (hbound : source.toList.length < bound)
    (rules : String → Grammar Char) (j : Journal σ) :
    ∃ d k, (run rules bound program (TokenCursor.ofText source tab) : Run σ _) j =
        .ok (.ok (.list (statements.map value)) d, k) ∧
      d = (TokenCursor.ofText source tab).forward source.toList.length ∧
      Cursor.isEnd d = true := by
  have hrest : (TokenCursor.ofText source tab).rest = source.toList ++ [] :=
    (List.append_nil _).symm
  obtain ⟨d, hpass, hd⟩ := TokenCursor.exists_passes hrest
  have hnone : Cursor.current d = none := congrArg List.head? hd
  obtain ⟨k, hk⟩ := gives_laid h hpass hnone rfl rfl hbound j
  exact ⟨d, k, hk, hpass.eq_forward, by rw [Cursor.isEnd, hnone]; rfl⟩

def moveAndStop : List Statement :=
  [⟨.ofLetter 'm' (by decide), [⟨1, by decide⟩, ⟨20, by decide⟩]⟩, ⟨.ofLetter 's' (by decide), []⟩]

theorem program_roundTrip_moveAndStop :
    Laid moveAndStop "m\n 1\n 20\ns\n".toList ∧
      ∃ d k, (run noRules 32 program (TokenCursor.ofText "m\n 1\n 20\ns\n" 4) : Run Unit _)
          ⟨(), [], []⟩ = .ok (.ok (.list (moveAndStop.map value)) d, k) ∧
        d = (TokenCursor.ofText "m\n 1\n 20\ns\n" 4).forward "m\n 1\n 20\ns\n".toList.length ∧
        Cursor.isEnd d = true := by
  have h : Laid moveAndStop "m\n 1\n 20\ns\n".toList :=
    .lines (.inl rfl) (lines_print moveAndStop)
  exact ⟨h, program_roundTrip h (by decide) noRules _⟩

end Grammar

end Descent
