import Descent.Proofs.Text.Lexemes

/-! Numbers in nested brackets. The grammar names itself for the items of a list. It reads every
printed tree back, and whatever it accepts is a printed tree, but for zeros in front of numbers. -/
namespace Descent

variable {σ : Type}

inductive Bracketed where
  | number (n : Fin Text.naturalLimit)
  | list (items : List Bracketed)

namespace Bracketed

mutual

def value : Bracketed → Value
  | number n => .natural n
  | list items => .list (values items)

def values : List Bracketed → List Value
  | [] => []
  | t :: more => t.value :: values more

end

mutual

/-- Numbers in decimal, lists in brackets with commas between the items. -/
def print : Bracketed → List Char
  | number n => Nat.toDigits 10 n
  | list [] => ['[', ']']
  | list (t :: more) => '[' :: (t.print ++ printMore more) ++ [']']

def printMore : List Bracketed → List Char
  | [] => []
  | t :: more => ',' :: t.print ++ printMore more

end

mutual

/-- The text is the printed tree, up to zeros in front of its numbers. -/
inductive Spells : Bracketed → List Char → Prop where
  | number {n : Fin Text.naturalLimit} {text : List Char} (h : Numeral n text) :
    Spells (number n) text
  | empty : Spells (list []) ['[', ']']
  | list {t : Bracketed} {more : List Bracketed} {first rest : List Char} (h : Spells t first)
      (hmore : SpellsMore more rest) : Spells (list (t :: more)) ('[' :: (first ++ rest) ++ [']'])

inductive SpellsMore : List Bracketed → List Char → Prop where
  | nil : SpellsMore [] []
  | cons {t : Bracketed} {more : List Bracketed} {first rest : List Char} (h : Spells t first)
      (hmore : SpellsMore more rest) : SpellsMore (t :: more) (',' :: first ++ rest)

end

mutual

theorem spells_print : (t : Bracketed) → Spells t t.print
  | number _ => .number ⟨0, rfl⟩
  | list [] => .empty
  | list (t :: more) => .list (spells_print t) (spellsMore_printMore more)

theorem spellsMore_printMore : (more : List Bracketed) → SpellsMore more (printMore more)
  | [] => .nil
  | t :: more => .cons (spells_print t) (spellsMore_printMore more)

end

mutual

theorem value_inj : (t u : Bracketed) → t.value = u.value → t = u
  | number m, number n, h => by
    simp only [value, Value.natural.injEq] at h
    rw [Fin.ext h]
  | list ts, list us, h => by
    simp only [value, Value.list.injEq] at h
    rw [values_inj ts us h]
  | number _, list _, h | list _, number _, h => by cases h

theorem values_inj : (ts us : List Bracketed) → values ts = values us → ts = us
  | [], [], _ => rfl
  | t :: ts, u :: us, h => by
    simp only [values, List.cons.injEq] at h
    rw [value_inj t u h.1, values_inj ts us h.2]
  | [], _ :: _, h | _ :: _, [], h => by cases h

end

end Bracketed

namespace Grammar

/-- A number, or items in brackets with commas between them. An item is a number or a list again, by
a parser of the next level. -/
def bracketedRules (path : String) : Grammar Char :=
  orElse natural (between (charOf (.only '['))
    (sepBy false (deferredRule (nested path)) (charOf (.only ','))) (charOf (.only ']')))

def bracketed : Grammar Char := bracketedRules "tree"

variable {bound depth : Nat} {path : String} {c d : TokenCursor Char} {text : List Char}

theorem parser_bracketed (rules : String → Parser (Run σ) (TokenCursor Char) Char Value) :
    parser bound rules (bracketedRules path) =
      Parser.orElse (Parser.map (Parser.natural bound) Value.natural)
        (Parser.between (Parser.map (Parser.charOf (.only '[')) Value.char)
          (Parser.map (Parser.sepBy false (parser bound rules (deferredRule (nested path)))
            (Parser.map (Parser.charOf (.only ',')) Value.char) bound) Value.list)
          (Parser.map (Parser.charOf (.only ']')) Value.char)) := by
  rw [bracketedRules, parser, parser_between, parser, parser, parser_charOf, parser_charOf,
    parser_charOf]

section Complete

open Bracketed

/-- What is neither a digit nor an opening bracket begins no tree. -/
theorem refuses_bracketed {rules : String → Parser (Run σ) (TokenCursor Char) Char Value}
    (hdigit : CharClass.digit.NotNext c) (hopen : (CharClass.only '[').NotNext c) :
    Parser.Refuses (parser bound rules (bracketedRules path)) c := by
  rw [parser_bracketed]
  exact ((Parser.refuses_natural hdigit).bind _).orElse
    (((Parser.refuses_charOf hopen).bind _).bind _)

theorem gives_token {t : Char} (h : c.Passes [t] d) :
    Parser.Gives (Parser.map (Parser.charOf (.only t)) Value.char :
      Parser (Run σ) (TokenCursor Char) Char Value) c (.char t) d :=
  (Parser.gives_charOf h (by simp [CharClass.only])).map _

/-- Reading begins with a bracket, so it is no number. -/
theorem gives_list {rules : String → Parser (Run σ) (TokenCursor Char) Char Value}
    {vs : List Value} (h : c.Passes ('[' :: text ++ [']']) d)
    (hitems : ∀ c' d', c'.Passes text d' → Cursor.current d' = some ']' →
      Parser.Gives (Parser.sepBy false (parser bound rules (deferredRule (nested path)))
        (Parser.map (Parser.charOf (.only ',')) Value.char) bound) c' vs d') :
    Parser.Gives (parser bound rules (bracketedRules path)) c (.list vs) d := by
  obtain ⟨d', hinner, hclose⟩ := h.split
  obtain ⟨c', hopen, hitem⟩ := hinner.uncons
  have hnatural : Parser.Refuses (Parser.map (Parser.natural bound) Value.natural :
      Parser (Run σ) _ Char Value) c :=
    (Parser.refuses_natural (CharClass.notNext_of_current hopen.current_eq rfl)).bind _
  rw [parser_bracketed]
  refine hnatural.orElse_gives ((gives_token hopen).keepRight (Parser.Gives.keepLeft ?_
    (gives_token hclose)))
  exact (hitems c' d' hitem hclose.current_eq).map _

/-- Behind an item stands a comma or the closing bracket. -/
theorem digit_notNext {more : List Bracketed} (h : SpellsMore more text) (hpass : c.Passes text d)
    (hd : Cursor.current d = some ']') : CharClass.digit.NotNext c := by
  cases h with
  | nil => exact CharClass.notNext_of_current (hpass.eq_nil ▸ hd) rfl
  | cons => exact CharClass.notNext_of_current hpass.current_eq rfl

mutual

/-- The text of a tree is read to its end. As deep as a text can nest, there are levels of rules. -/
theorem gives_bracketed : (t : Bracketed) → ∀ {path : String} {text : List Char} {depth : Nat}
    {c d : TokenCursor Char}, Spells t text → c.Passes text d → CharClass.digit.NotNext d →
    text.length ≤ depth → text.length ≤ bound →
    Parser.Gives (parser bound (ruleParser bracketedRules bound depth) (bracketedRules path) :
      Parser (Run σ) _ Char Value) c t.value d
  | .number n, _, _, _, _, _, .number h, hpass, hd, _, hbound => by
    rw [parser_bracketed, Bracketed.value]
    exact ((Parser.gives_natural hpass h n.isLt hd hbound).map _).orElse _
  | .list [], path, _, _, _, _, .empty, hpass, _, hdepth, _ => by
    obtain ⟨depth, rfl⟩ := Nat.exists_eq_add_one.2 (Nat.zero_lt_of_lt hdepth)
    rw [Bracketed.value, Bracketed.values]
    have hpass : TokenCursor.Passes _ ('[' :: [] ++ [']']) _ := hpass
    refine gives_list hpass fun c' d' hnil hd => ?_
    obtain rfl := hnil.eq_nil
    have hitem : Parser.Refuses (parser bound (ruleParser bracketedRules bound depth)
        (bracketedRules (nested path).name) : Parser (Run σ) _ Char Value) d' :=
      refuses_bracketed (CharClass.notNext_of_current hd rfl)
        (CharClass.notNext_of_current hd rfl)
    exact (hitem.deferred _ _).sepBy _ _
  | .list (t :: more), path, _, _, _, _, @Spells.list _ _ first rest h hmore, hpass, _, hdepth,
      hbound => by
    obtain ⟨depth, rfl⟩ := Nat.exists_eq_add_one.2 (Nat.zero_lt_of_lt hdepth)
    simp only [List.cons_append, List.length_cons, List.length_append] at hdepth hbound
    rw [Bracketed.value, Bracketed.values]
    refine gives_list hpass fun c' d' hitems hd => ?_
    obtain ⟨e, hfirst, hrest⟩ := hitems.split
    have hitem : Parser.Gives (parser bound (ruleParser bracketedRules bound depth)
        (bracketedRules (nested path).name) : Parser (Run σ) _ Char Value) c' t.value e :=
      gives_bracketed t h hfirst (digit_notNext hmore hrest hd) (by omega) (by omega)
    exact (gives_deferredRule hitem).sepBy
      (gives_more more hmore hrest hd (by omega) (by omega) (by omega)) false

/-- Items after the first are read up to the closing bracket. -/
theorem gives_more : (ts : List Bracketed) → ∀ {path : String} {text : List Char} {depth n : Nat}
    {c d : TokenCursor Char}, SpellsMore ts text → c.Passes text d →
    Cursor.current d = some ']' → text.length ≤ depth → text.length ≤ bound → text.length < n →
    Parser.Gives (Parser.sepRest (parser bound (ruleParser bracketedRules bound depth)
        (deferredRule (nested path))) (Parser.map (Parser.charOf (.only ',')) Value.char) n :
      Parser (Run σ) _ Char (List Value)) c (Bracketed.values ts) d
  | [], _, _, _, _, _, d, .nil, hpass, hd, _, _, hn => by
    obtain ⟨n, rfl⟩ := Nat.exists_eq_add_one.2 (Nat.zero_lt_of_lt hn)
    obtain rfl := hpass.eq_nil
    have hcomma : Parser.Refuses (Parser.map (Parser.charOf (.only ',')) Value.char :
        Parser (Run σ) (TokenCursor Char) Char Value) d :=
      (Parser.refuses_charOf (CharClass.notNext_of_current hd rfl)).bind _
    exact hcomma.sepRest _ n
  | t :: more, path, _, _, _, _, _, @SpellsMore.cons _ _ first rest h hmore, hpass, hd, hdepth,
      hbound, hn => by
    obtain ⟨depth, rfl⟩ := Nat.exists_eq_add_one.2 (Nat.zero_lt_of_lt hdepth)
    obtain ⟨n, rfl⟩ := Nat.exists_eq_add_one.2 (Nat.zero_lt_of_lt hn)
    simp only [List.cons_append, List.length_cons, List.length_append] at hdepth hbound hn
    obtain ⟨e, hitem, hrest⟩ := hpass.split
    obtain ⟨c', hcomma, hfirst⟩ := hitem.uncons
    have hgives : Parser.Gives (parser bound (ruleParser bracketedRules bound depth)
        (bracketedRules (nested path).name) : Parser (Run σ) _ Char Value) c' t.value e :=
      gives_bracketed t h hfirst (digit_notNext hmore hrest hd) (by omega) (by omega)
    exact (gives_token hcomma).sepRest (gives_deferredRule hgives)
      (gives_more more hmore hrest hd (by omega) (by omega) (by omega))

end

end Complete

section Sound

open Bracketed

/-- Items that were read in turn, each behind a comma, are spelled out. -/
theorem spellsMore_of_inTurn {vs : List Value}
    (h : Parser.InTurn (fun v text => ∃ w first second, text = first ++ second ∧
      (∃ c, Value.char c = w ∧ first = [c] ∧ (CharClass.only ',').test c = true) ∧
      ∃ t, v = Bracketed.value t ∧ Spells t second) vs text) :
    ∃ ts, vs = Bracketed.values ts ∧ SpellsMore ts text := by
  induction h with
  | nil => exact ⟨[], rfl, .nil⟩
  | cons hv _ ih =>
    obtain ⟨_, _, second, rfl, ⟨c, rfl, rfl, hc⟩, t, rfl, ht⟩ := hv
    obtain ⟨ts, rfl, hts⟩ := ih
    obtain rfl : c = ',' := by simpa [CharClass.only] using hc
    exact ⟨t :: ts, rfl, .cons ht hts⟩

theorem reads_bracketed {rules : String → Parser (Run σ) (TokenCursor Char) Char Value}
    (h : Parser.Reads (rules (nested path).name) fun v text =>
      ∃ t, v = Bracketed.value t ∧ Spells t text) :
    Parser.Reads (parser bound rules (bracketedRules path)) fun v text =>
      ∃ t, v = Bracketed.value t ∧ Spells t text := by
  have htoken (t : Char) := (Parser.reads_charOf (σ := σ) (.only t)).map Value.char
  rw [parser_bracketed]
  refine Parser.Reads.orElse ?_ ?_
  · refine ((Parser.reads_natural bound).map Value.natural).mono ?_
    rintro _ text ⟨n, rfl, hn, hlimit⟩
    exact ⟨.number ⟨n, hlimit⟩, rfl, .number hn⟩
  · refine ((htoken '[').bind fun _ =>
      (((h.deferred _ _).sepBy (htoken ',') false bound).map Value.list).bind
        fun v => (htoken ']').map fun _ => v).mono ?_
    rintro _ _ ⟨_, _, _, rfl, ⟨c, rfl, rfl, hc⟩, _, items, _, rfl, ⟨vs, rfl, hvs⟩,
      _, rfl, c', rfl, rfl, hc'⟩
    obtain rfl : c = '[' := by simpa [CharClass.only] using hc
    obtain rfl : c' = ']' := by simpa [CharClass.only] using hc'
    rcases hvs with ⟨rfl, rfl⟩ | ⟨_, _, first, second, rfl, rfl, ⟨t, rfl, ht⟩, hmore⟩
    · exact ⟨.list [], rfl, .empty⟩
    · obtain ⟨ts, rfl, hts⟩ := spellsMore_of_inTurn hmore
      refine ⟨.list (t :: ts), rfl, ?_⟩
      exact .list ht hts

theorem reads_item (depth : Nat) (path : String) :
    Parser.Reads (ruleParser bracketedRules bound depth path :
      Parser (Run σ) (TokenCursor Char) Char Value)
      fun v text => ∃ t, v = Bracketed.value t ∧ Spells t text := by
  induction depth generalizing path with
  | zero => exact fun _ _ _ _ _ h => nomatch h
  | succ depth ih => exact reads_bracketed (ih _)

end Sound

open Bracketed in
/-- The language of the grammar. A printed tree is read back, and nothing of what follows it, if
that does not begin with a digit. And a success, wherever it comes about, has a tree for its value,
and only one, which the text that was read prints, up to zeros in front of numbers. -/
theorem bracketed_language (bound : Nat) (j : Journal σ) :
    (∀ (t : Bracketed) (rest : List Char) (c : TokenCursor Char), c.rest = t.print ++ rest →
      (∀ ch, rest.head? = some ch → ch.isDigit = false) → t.print.length ≤ bound →
      ∃ d k, (run bracketedRules bound bracketed c : Run σ _) j = .ok (.ok t.value d, k) ∧
        d = c.forward t.print.length ∧ d.rest = rest) ∧
    ∀ (c d : TokenCursor Char) (v : Value) (k : Journal σ),
      (run bracketedRules bound bracketed c : Run σ _) j = .ok (.ok v d, k) →
      ∃ t, v = Bracketed.value t ∧ (∀ u, v = Bracketed.value u → u = t) ∧
        ∃ text, Spells t text ∧ d = c.forward text.length ∧ c.rest = text ++ d.rest := by
  constructor
  · intro t rest c hrest hdigit hbound
    obtain ⟨d, hpass, hd⟩ := TokenCursor.exists_passes hrest
    have hend : CharClass.digit.NotNext d := fun ch hch => hdigit ch (hd ▸ hch)
    obtain ⟨k, hk⟩ := gives_bracketed t (spells_print t) hpass hend hbound hbound j
    exact ⟨d, k, hk, hpass.eq_forward, hd⟩
  · intro c d v k h
    obtain ⟨text, ⟨t, rfl, ht⟩, hpass⟩ := reads_bracketed (reads_item bound _) h
    exact ⟨t, rfl, fun u hu => value_inj u t hu.symm, text, ht, hpass.eq_forward, hpass.rest_eq⟩

def sevenAndNone : Bracketed := .list [.number ⟨7, by decide⟩, .list []]

theorem bracketed_language_zero :
    ((TokenCursor.ofText "[7,[]];" 4).rest = sevenAndNone.print ++ [';'] ∧
      ∃ d k, (run bracketedRules 16 bracketed (TokenCursor.ofText "[7,[]];" 4) : Run Unit _)
          ⟨(), [], []⟩ = .ok (.ok sevenAndNone.value d, k) ∧
        d = (TokenCursor.ofText "[7,[]];" 4).forward sevenAndNone.print.length ∧
        d.rest = [';']) ∧
    ∃ v d k, (run bracketedRules 16 bracketed (TokenCursor.ofText "[07]" 4) : Run Unit _)
        ⟨(), [], []⟩ = .ok (.ok v d, k) ∧
      ∃ t, v = Bracketed.value t ∧ ∃ text, Bracketed.Spells t text ∧
        (TokenCursor.ofText "[07]" 4).rest = text ++ d.rest := by
  constructor
  · have hrest : (TokenCursor.ofText "[7,[]];" 4).rest = sevenAndNone.print ++ [';'] := rfl
    have hdigit : ∀ ch, [';'].head? = some ch → ch.isDigit = false := by
      rintro ch ⟨⟩
      rfl
    exact ⟨hrest, (bracketed_language 16 ⟨(), [], []⟩).1 sevenAndNone [';'] _ hrest hdigit
      (by decide)⟩
  · have hrun : ∃ v d k, (run bracketedRules 16 bracketed (TokenCursor.ofText "[07]" 4) :
        Run Unit _) ⟨(), [], []⟩ = .ok (.ok v d, k) := ⟨_, _, _, rfl⟩
    obtain ⟨v, d, k, h⟩ := hrun
    obtain ⟨t, ht, _, text, hs, _, hrest⟩ := (bracketed_language 16 ⟨(), [], []⟩).2 _ d v k h
    exact ⟨v, d, k, h, t, ht, text, hs, hrest⟩

end Grammar

end Descent
