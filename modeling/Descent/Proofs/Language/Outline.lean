import Descent.Proofs.Text.Columns

/-! Outlines: names on lines of their own, where a name that is indented further than the line above
belongs to it. The grammar of outlines is a block whose items are outlines again. However an outline
is laid out, with blank lines and with indentations of any depth, it is read back. -/
namespace Descent

variable {σ : Type}

inductive Outline where
  | node (name : Name) (items : List Outline)

namespace Outline

mutual

def value : Outline → Value
  | node name items => .pair (.text name.text) (.list (values items))

def values : List Outline → List Value
  | [] => []
  | t :: more => t.value :: values more

end

mutual

/-- The text of an outline from its name on, if the line of the name is indented by `indent`. The
lines of its items are indented further, and all alike. -/
inductive Laid : (indent : Nat) → Outline → List Char → Prop where
  | node {indent inner : Nat} {name : Name} {items : List Outline} {text : List Char}
      (hlt : indent < inner) (h : Lines inner items text) :
      Laid indent (node name items) (name.chars ++ text)

/-- The text of items on lines that are indented by `inner`. -/
inductive Lines : (inner : Nat) → List Outline → List Char → Prop where
  | nil {inner : Nat} : Lines inner [] []
  | cons {inner : Nat} {t : Outline} {more : List Outline} {gap text rest : List Char}
      (hgap : LineBreak inner gap) (h : Laid inner t text) (hmore : Lines inner more rest) :
      Lines inner (t :: more) (gap ++ (text ++ rest))

end

mutual

def print (indent : Nat) : Outline → List Char
  | node name items => name.chars ++ printLines (indent + 2) items

def printLines (inner : Nat) : List Outline → List Char
  | [] => []
  | t :: more => '\n' :: List.replicate inner ' ' ++ (t.print inner ++ printLines inner more)

end

mutual

theorem laid_print : (indent : Nat) → (t : Outline) → Laid indent t (t.print indent)
  | _, node _ items => .node (Nat.lt_add_of_pos_right Nat.two_pos) (lines_printLines _ items)

theorem lines_printLines : (inner : Nat) → (ts : List Outline) →
    Lines inner ts (printLines inner ts)
  | _, [] => .nil
  | inner, t :: more =>
    .cons ⟨[], List.forall_mem_nil _, rfl⟩ (laid_print inner t) (lines_printLines inner more)

end

/-- What ends an outline: white space up to the end of the input, or a line that is indented no
further than the outline. -/
def Ends (indent : Nat) (rest : List Char) : Prop :=
  Blanks rest ∨ ∃ n gap c more, n ≤ indent ∧ LineBreak n gap ∧ rest = gap ++ c :: more ∧
    CharClass.blank.test c = false

variable {indent inner : Nat} {t : Outline} {items : List Outline} {text rest : List Char}
  {c d : TokenCursor Char}

/-- An outline begins with a letter. -/
theorem Laid.exists_cons (h : Laid indent t text) :
    ∃ c more, text = c :: more ∧ CharClass.blank.test c = false := by
  cases h with
  | @node _ _ name _ _ _ _ => exact ⟨name.first, _, rfl, name.blank_first⟩

theorem Laid.notNext (h : Laid indent t text) (hpass : c.Passes text d) :
    CharClass.blank.NotNext c := by
  obtain ⟨first, more, rfl, hfirst⟩ := h.exists_cons
  exact CharClass.notNext_of_current hpass.current_eq hfirst

theorem Laid.isEnd_eq (h : Laid indent t text) (hpass : c.Passes text d) :
    Cursor.isEnd c = false := by
  obtain ⟨first, more, rfl, -⟩ := h.exists_cons
  exact hpass.isEnd_eq

theorem Ends.mono (h : Ends indent rest) (hle : indent ≤ inner) : Ends inner rest := by
  rcases h with h | ⟨n, gap, c, more, hn, h⟩
  · exact .inl h
  · exact .inr ⟨n, gap, c, more, Nat.le_trans hn hle, h⟩

/-- White space stands behind an outline, or nothing. -/
theorem Ends.next (h : Ends indent c.rest) : CharClass.blank.Next c := by
  rcases h with h | ⟨n, gap, first, more, _, hgap, hrest, _⟩
  · exact fun t ht => h t (List.mem_of_head? ht)
  · obtain ⟨d, hpass, -⟩ := TokenCursor.exists_passes hrest
    exact hgap.blanks.next hgap.length_pos hpass

/-- Further items on lines indented by `inner` end an outline on such a line. -/
theorem ends_of_lines (h : Lines inner items text) (hpass : c.Passes text d)
    (hd : Ends indent d.rest) (hle : indent ≤ inner) : Ends inner c.rest := by
  cases h with
  | nil =>
    obtain rfl := hpass.eq_nil
    exact hd.mono hle
  | @cons _ _ _ gap text rest hgap ht _ =>
    obtain ⟨ch, more, rfl, hch⟩ := ht.exists_cons
    refine .inr ⟨inner, gap, ch, more ++ (rest ++ d.rest), Nat.le_refl _, hgap, ?_, hch⟩
    rw [hpass.rest_eq]
    simp

end Outline

namespace Grammar

/-- A name, and a block of outlines below it, each by a parser of the next level. -/
def outlineRules (path : String) : Grammar Char :=
  block false blanks identifier (deferredRule (nested path))

def outline : Grammar Char := outlineRules "tree"

open Outline

variable {rules : String → Parser (Run σ) (TokenCursor Char) Char Value} {bound tab indent n : Nat}
  {path : String} {name : Name} {gap : List Char} {c line d e : TokenCursor Char}

/-- A name, and the items behind it. -/
theorem gives_node {vs : List Value} (hgap : Blanks gap) (hc : c.Passes gap line)
    (hlevel : (Cursor.level line).column = indent + 1) (hname : line.Passes name.chars e)
    (hbehind : CharClass.blank.Next e) (hbound : c.rest.length < bound)
    (hitems : Parser.Gives (Parser.blockItems (parser bound rules blanks)
      (parser bound rules (deferredRule (nested path))) ⟨indent + 1⟩ false none bound) e vs d) :
    Parser.Gives (parser bound rules (outlineRules path)) c (.pair (.text name.text) (.list vs))
      d := by
  have hreference : (⟨indent + 1⟩ : Level) = Cursor.level line := congrArg Level.mk hlevel.symm
  have hblanks : Parser.Gives (parser bound rules blanks) c .unit line :=
    gives_blanks hc hgap (CharClass.notNext_of_current hname.current_eq name.blank_first)
      (hc.text_lt hbound)
  have hhead : Parser.Gives (parser bound rules identifier) line (.text name.text) e :=
    gives_name hname hbehind (Nat.le_of_lt (hname.text_lt (hc.rest_lt hbound)))
  rw [hreference] at hitems
  exact (hblanks.block hhead hitems).map _

/-- Behind an outline there is no further item: the white space is skipped, and given back. -/
theorem gives_no_items {item : Parser (Run σ) (TokenCursor Char) Char Value}
    {aligned : Option Level} (h : Ends indent c.rest) (hrule : c.rule = Position.nextChar tab)
    (hbound : c.rest.length < bound) :
    Parser.Gives (Parser.blockItems (parser bound rules blanks) item ⟨indent + 1⟩ false aligned
      (n + 1)) c [] c := by
  rcases h with h | ⟨m, gap, ch, more, hm, hgap, hrest, hch⟩
  · obtain ⟨d, hpass, hd⟩ := TokenCursor.exists_passes (List.append_nil c.rest).symm
    have hnone : Cursor.current d = none := congrArg List.head? hd
    refine (gives_blanks hpass h (CharClass.notNext_of_none hnone) hbound).blockItems_end (.inl ?_)
    rw [Cursor.isEnd, hnone]
    rfl
  · obtain ⟨d, hpass, hd⟩ := TokenCursor.exists_passes hrest
    have hcurrent : Cursor.current d = some ch := congrArg List.head? hd
    refine (gives_blanks hpass hgap.blanks (CharClass.notNext_of_current hcurrent hch)
      (hpass.text_lt hbound)).blockItems_end (.inr ?_)
    rw [hgap.column_eq hpass hrule]
    exact Nat.succ_le_succ hm

mutual

/-- An outline is read from the white space in front of its line on, and to the end of its text. -/
theorem gives_outline : (t : Outline) → ∀ {path : String} {indent depth : Nat}
    {gap text : List Char} {c line d : TokenCursor Char}, Laid indent t text → Blanks gap →
    c.Passes gap line → (Cursor.level line).column = indent + 1 → line.Passes text d →
    Ends indent d.rest → c.rule = Position.nextChar tab → c.rest.length < bound →
    text.length ≤ depth →
    Parser.Gives (parser bound (ruleParser outlineRules bound depth) (outlineRules path) :
      Parser (Run σ) _ Char Value) c t.value d
  | .node name items, _, _, _, _, _, _, _, _, @Laid.node _ inner _ _ _ hlt h, hgap, hc, hlevel,
      hpass, hd, hrule, hbound, hdepth => by
    obtain ⟨e, hname, hitems⟩ := hpass.split
    have hbehind : Ends inner e.rest := ends_of_lines h hitems hd (Nat.le_of_lt hlt)
    have hrule' : e.rule = Position.nextChar tab := by rw [hname.rule_eq, hc.rule_eq, hrule]
    have hbound' := hname.rest_lt (hc.rest_lt hbound)
    rw [List.length_append] at hdepth
    refine gives_node hgap hc hlevel hname hbehind.next hbound ?_
    exact gives_outlines items h hlt hitems hd rfl hrule' hbound' (Nat.le_of_add_left_le hdepth)
      (hitems.text_lt hbound')

/-- Items are read one line after another, each where the first one stood. -/
theorem gives_outlines : (ts : List Outline) → ∀ {path : String} {indent inner depth n : Nat}
    {text : List Char} {aligned : Option Level} {c d : TokenCursor Char}, Lines inner ts text →
    indent < inner → c.Passes text d → Ends indent d.rest →
    aligned.getD ⟨inner + 1⟩ = ⟨inner + 1⟩ →
    c.rule = Position.nextChar tab → c.rest.length < bound → text.length ≤ depth → text.length < n →
    Parser.Gives (Parser.blockItems (parser bound (ruleParser outlineRules bound depth) blanks)
        (parser bound (ruleParser outlineRules bound depth) (deferredRule (nested path)))
        ⟨indent + 1⟩ false aligned n : Parser (Run σ) _ Char (List Value)) c (Outline.values ts) d
  | [], _, _, _, _, _, _, _, _, _, .nil, _, hpass, hd, _, hrule, hbound, _, hn => by
    obtain ⟨n, rfl⟩ := Nat.exists_eq_add_one.2 (Nat.zero_lt_of_lt hn)
    obtain rfl := hpass.eq_nil
    exact gives_no_items hd hrule hbound
  | t :: more, path, _, inner, depth, _, _, _, _, _, @Lines.cons _ _ _ gap text rest hgap h hmore,
      hlt, hpass, hd, haligned, hrule, hbound, hdepth, hn => by
    obtain ⟨n, rfl⟩ := Nat.exists_eq_add_one.2 (Nat.zero_lt_of_lt hn)
    obtain ⟨line, hc, hlines⟩ := hpass.split
    obtain ⟨e, htext, hrest⟩ := hlines.split
    -- a line break is not empty, so there is a level of rules left for the item
    have hpos : 0 < gap.length := hgap.length_pos
    simp only [List.length_append] at hdepth hn
    obtain ⟨depth, rfl⟩ := Nat.exists_eq_add_one.2 (show 0 < depth by omega)
    have hcolumn := hgap.column_eq hc hrule
    have hlevel : Cursor.level line = ⟨inner + 1⟩ := congrArg Level.mk hcolumn
    have hsame : (some (Cursor.level line)).getD ⟨inner + 1⟩ = ⟨inner + 1⟩ := hlevel
    have hrule' : line.rule = Position.nextChar tab := hc.rule_eq.trans hrule
    have hbound' := hc.rest_lt hbound
    have hbehind : Ends inner e.rest := ends_of_lines hmore hrest hd (Nat.le_of_lt hlt)
    have hitem : Parser.Gives (parser bound (ruleParser outlineRules bound depth)
        (outlineRules (nested path).name) : Parser (Run σ) _ Char Value) line t.value e :=
      gives_outline t h (List.forall_mem_nil _) (.refl line) hcolumn htext hbehind hrule' hbound'
        (by omega)
    refine Parser.Gives.blockItems_cons (gives_blanks hc hgap.blanks (h.notNext htext)
      (hc.text_lt hbound)) (h.isEnd_eq htext) ?_ ?_ (gives_deferredRule hitem) ?_
    · rw [hcolumn]
      exact Nat.succ_lt_succ hlt
    · rw [hlevel]
      exact haligned
    · exact gives_outlines more hmore hlt hrest hd hsame (htext.rule_eq.trans hrule')
        (htext.rest_lt hbound') (show rest.length ≤ depth + 1 by omega)
        (show rest.length < n by omega)

end

/-- An outline is read back from any layout of it, and nothing behind its last name is read. -/
theorem outline_roundTrip {t : Outline} {indent : Nat} {source : String}
    {lead text trailing : List Char} (hsource : source.toList = lead ++ text ++ trailing)
    (hlead : Lead indent lead) (ht : Laid indent t text) (htrailing : Blanks trailing)
    (hbound : source.toList.length < bound) (j : Journal σ) :
    ∃ d k, (run outlineRules bound outline (TokenCursor.ofText source tab) : Run σ _) j =
        .ok (.ok t.value d, k) ∧
      d = (TokenCursor.ofText source tab).forward (lead ++ text).length ∧ d.rest = trailing := by
  have hrest : (TokenCursor.ofText source tab).rest = lead ++ text ++ trailing := hsource
  obtain ⟨d, hpass, hd⟩ := TokenCursor.exists_passes hrest
  obtain ⟨line, hc, htext⟩ := hpass.split
  have hlevel : (Cursor.level line).column = indent + 1 := hlead.column_eq hc rfl rfl
  have hends : Ends indent d.rest := .inl (hd ▸ htrailing)
  obtain ⟨k, hk⟩ := gives_outline t ht hlead.blanks hc hlevel htext hends rfl hbound
    (Nat.le_of_lt (htext.text_lt (hc.rest_lt hbound))) j
  exact ⟨d, k, hk, hpass.eq_forward, hd⟩

/-- The outline of `a`, which has `b` and `e` below it; `c` is below `b`, and `d` below `c`. -/
def staircase : Outline :=
  .node (.ofLetter 'a' (by decide))
    [.node (.ofLetter 'b' (by decide))
      [.node (.ofLetter 'c' (by decide)) [.node (.ofLetter 'd' (by decide)) []]],
     .node (.ofLetter 'e' (by decide)) []]

theorem outline_roundTrip_staircase :
    "a\n  b\n    c\n      d\n  e\n".toList = [] ++ staircase.print 0 ++ ['\n'] ∧
      ∃ d k, (run outlineRules 32 outline
          (TokenCursor.ofText "a\n  b\n    c\n      d\n  e\n" 4) : Run Unit _) ⟨(), [], []⟩ =
            .ok (.ok staircase.value d, k) ∧
        d = (TokenCursor.ofText "a\n  b\n    c\n      d\n  e\n" 4).forward
          ([] ++ staircase.print 0).length ∧ d.rest = ['\n'] := by
  have hsource : "a\n  b\n    c\n      d\n  e\n".toList = [] ++ staircase.print 0 ++ ['\n'] := by
    decide
  have htrailing : Blanks ['\n'] := List.forall_mem_singleton.2 (by decide)
  exact ⟨hsource, outline_roundTrip hsource (.inl rfl) (laid_print 0 staircase) htrailing
    (by decide) _⟩

end Grammar

end Descent
