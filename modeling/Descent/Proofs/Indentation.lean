import Descent.Proofs.Invariant
import Descent.Proofs.Inversion
import Descent.Proofs.Steady
import Descent.Proofs.Text.Lexemes

/-! When errors are right about indentation. All complaints of an indentation are checked before
they are made but two: a block and a run of items that need an item complain at the end of the
input, where their item can be read, without a look at the level there. These two places decide
whether every complaint is right. -/
namespace Descent

variable {σ C τ : Type} [Cursor C τ]

def ParseError.Justified (e : ParseError τ) : Prop :=
  ∀ relation reference actual, .indentation relation reference actual ∈ e.notes →
    relation.satisfies reference actual = false

namespace ParseError.Justified

variable {e f : ParseError τ}

theorem merge [DecidableEq τ] (he : e.Justified) (hf : f.Justified) : (e.merge f).Justified := by
  unfold ParseError.merge
  split
  · exact he
  · split
    · exact hf
    · cases e with
      | mismatch =>
        cases f with
        | mismatch => exact fun _ _ _ h => nomatch h
        | explained => exact hf
      | explained _ notes =>
        cases f with
        | mismatch => exact he
        | explained _ notes' =>
          intro relation reference actual h
          rcases mem_union.1 h with h | h
          · exact he relation reference actual h
          · exact hf relation reference actual h

theorem relabel (label : String) (he : e.Justified) : (e.relabel label).Justified := by
  cases e with
  | mismatch => exact he
  | explained => simp [Justified, ParseError.relabel, message, notes]

theorem indentation {p : Position} {relation : Relation} {reference actual : Level} :
    (ParseError.indentation p relation reference actual : ParseError τ).Justified ↔
      relation.satisfies reference actual = false := by
  constructor
  · intro h
    exact h relation reference actual (List.mem_singleton.2 rfl)
  · intro h relation reference actual hmem
    cases List.mem_singleton.1 hmem
    exact h

end ParseError.Justified

def Misplaced (relation : Relation) (reference : Level) (line : C) : Prop :=
  relation.satisfies reference (Cursor.level line) = false

namespace Parser

variable {α β γ : Type} {blanks : Parser (Run σ) C τ γ} {head : Parser (Run σ) C τ α}
  {item : Parser (Run σ) C τ β} {line : C}

/-- A block that is empty though its item can be read complains of the level at the end of the
input, whatever it is. -/
theorem block_of_empty {first : C} (bound : Nat) (h : EmptyBlock blanks head item first line) :
    ∃ c j k, block true blanks head item (bound + 1) c j =
      .ok (.fail (indentationFailure line .gt (Cursor.level first)), k) := by
  obtain ⟨c, next, d, i, j, k, l, m, ⟨_, hfirst⟩, ⟨_, hnext⟩, ⟨_, hline⟩, he, ⟨_, hitem⟩⟩ := h
  have hmissing : missingItem item (Cursor.level first) line l =
      .ok (indentationFailure line .gt (Cursor.level first), m) := by
    rw [missingItem, if_pos he, Run.bind_of_ok hitem]
    rfl
  have hitems : blockItems blanks item (Cursor.level first) true none (bound + 1) next k =
      .ok (.fail (indentationFailure line .gt (Cursor.level first)), m) := by
    rw [blockItems, Run.bind_of_ok hline]
    dsimp only
    rw [if_pos (by rw [he]; rfl), if_pos rfl, Run.bind_of_ok hmissing]
    rfl
  refine ⟨c, i, m, ?_⟩
  rw [block, keepRight, bind_of_ok hfirst, bind_of_ok rfl]
  unfold both map
  rw [bind_of_ok hnext, bind_of_fail hitems]

/-- So does a run of items. -/
theorem itemsAt_of_empty {reference : Level} {relation : Relation} (bound : Nat)
    (h : EmptyItems blanks item line) :
    ∃ c j k, itemsAt reference relation blanks item true (bound + 1) c j =
      .ok (.fail (indentationFailure line relation reference), k) := by
  obtain ⟨c, d, j, k, l, ⟨_, hline⟩, he, ⟨_, hitem⟩⟩ := h
  refine ⟨c, j, l, ?_⟩
  rw [itemsAt, Run.bind_of_ok hline]
  dsimp only
  rw [if_pos he, Run.bind_of_ok hitem]
  rfl

end Parser

variable [Advance (Run σ) C] [DecidableEq τ]

/-- Errors that complain with reason, where what is said of the end of the input is right too. -/
def justified (σ C : Type) {τ : Type} [Cursor C τ] [Advance (Run σ) C] [DecidableEq τ]
    [Steady σ C] : Invariant σ C τ where
  cursor _ := True
  error := ParseError.Justified
  excused := Misplaced
  advance _ ht := (Steady.advance ht).mono fun _ _ h => ⟨h, trivial⟩
  merge := .merge
  relabel := .relabel
  message _ _ := by simp [ParseError.Justified, ParseError.message, ParseError.notes]
  found _ _ _ := by simp [ParseError.Justified, ParseError.found, ParseError.notes]
  misplaced _ h := ParseError.Justified.indentation.2 (h.elim id And.right)

namespace Grammar

variable [Token τ]

/-- A grammar that makes no errors of its own and, where it is a block or a run of items that comes
to the end of the input without the item it needs, is right to complain of the level there. -/
def Checked (σ C : Type) {τ : Type} [Cursor C τ] [Advance (Run σ) C] [DecidableEq τ] [Token τ]
    (rules : String → Grammar τ) (bound depth : Nat) (g : Grammar τ) : Prop :=
  g.Plain ∧
    g.EmptyEnds bound (ruleParser rules bound depth : String → Parser (Run σ) C τ Value) Misplaced

def FailsJustly (σ C : Type) {τ : Type} [Cursor C τ] [Advance (Run σ) C] [DecidableEq τ]
    [Token τ] (rules : String → Grammar τ) (bound : Nat) (g : Grammar τ) : Prop :=
  ∀ (c : C) (j k : Journal σ) (f : Failure C τ),
    (run rules bound g c : Run σ _) j = .ok (.fail f, k) → f.error.Justified

variable [Steady σ C] {rules : String → Grammar τ} {bound : Nat}

theorem failsJustly_of_checked
    (hr : ∀ depth name, (rules name).Every (Checked σ C rules bound depth)) {g : Grammar τ}
    (hg : g.Every (Checked σ C rules bound bound)) : FailsJustly σ C rules bound g := by
  intro c j k f h
  have hadmits (depth : Nat) {g : Grammar τ} (hg : g.Every (Checked σ C rules bound depth)) :
      g.Every ((justified σ C).Admits bound (ruleParser rules bound depth)) :=
    hg.mono fun _ h => Likeness.admits_of_plain h.1 h.2
  have hok := (justified σ C).run_ok (fun depth name => hadmits depth (hr depth name))
    (hadmits bound hg) trivial h
  exact hok.2 f rfl

/-- When errors are right about indentation. Grammars whose blocks and runs of items are all
checked never complain of a level without reason. For a block or a run of items with checked parts
that needs an item the check is not only enough but needed: without it some run complains of a
level that stands to its reference just as asked. -/
theorem failsJustly_iff
    (hr : ∀ depth name, (rules name).Every (Checked σ C rules bound depth)) (hb : 0 < bound) :
    (∀ g : Grammar τ, g.Every (Checked σ C rules bound bound) → FailsJustly σ C rules bound g) ∧
    (∀ blanks head item : Grammar τ, blanks.Every (Checked σ C rules bound bound) →
      head.Every (Checked σ C rules bound bound) → item.Every (Checked σ C rules bound bound) →
      (FailsJustly σ C rules bound (block true blanks head item) ↔
        Checked σ C rules bound bound (block true blanks head item))) ∧
    (∀ (reference : Level) (relation : Relation) (blanks item : Grammar τ),
      blanks.Every (Checked σ C rules bound bound) →
      item.Every (Checked σ C rules bound bound) →
      (FailsJustly σ C rules bound (itemsAt true reference relation blanks item) ↔
        Checked σ C rules bound bound (itemsAt true reference relation blanks item))) := by
  obtain ⟨bound, rfl⟩ := Nat.exists_eq_add_one.2 hb
  refine ⟨fun g hg => failsJustly_of_checked hr hg, ?_, ?_⟩
  · intro blanks head item hblanks hhead hitem
    constructor
    · intro hjust
      refine ⟨trivial, fun _ first line hempty => ?_⟩
      obtain ⟨c, j, k, hblock⟩ := Parser.block_of_empty bound hempty
      exact ParseError.Justified.indentation.1 (hjust c j k _ (Parser.bind_of_fail hblock))
    · intro hchecked
      exact failsJustly_of_checked hr ⟨hchecked, hblanks, hhead, hitem⟩
  · intro reference relation blanks item hblanks hitem
    constructor
    · intro hjust
      refine ⟨trivial, fun _ line hempty => ?_⟩
      obtain ⟨c, j, k, hitems⟩ := Parser.itemsAt_of_empty bound hempty
      exact ParseError.Justified.indentation.1 (hjust c j k _ (Parser.bind_of_fail hitems))
    · intro hchecked
      exact failsJustly_of_checked hr ⟨hchecked, hblanks, hitem⟩

/-- At the end of the input no name can be read, so nothing is said of the level there. -/
theorem identifiers_failJustly :
    FailsJustly Unit (TokenCursor Char) noRules 4 (block true blanks identifier identifier) ∧
      FailsJustly Unit (TokenCursor Char) noRules 4
        (itemsAt true .first .gt blanks identifier) := by
  have hr (depth : Nat) (name : String) :
      (noRules name).Every (Checked Unit (TokenCursor Char) noRules 4 depth) :=
    ⟨trivial, trivial⟩
  have hidentifier : identifier.Every (Checked Unit (TokenCursor Char) noRules 4 4) :=
    ⟨trivial, trivial⟩
  have hblanks : blanks.Every (Checked Unit (TokenCursor Char) noRules 4 4) := by
    simp [Every, Checked, Plain, EmptyEnds, blanks, skip, charOf, map]
  have hnone (line : TokenCursor Char) (he : Cursor.isEnd line = true) :
      Parser.Refuses (identifier.parser 4 (ruleParser noRules 4 4) :
        Parser (Run Unit) (TokenCursor Char) Char Value) line :=
    refuses_name (Option.isNone_iff_eq_none.1 he)
  obtain ⟨-, hblock, hitems⟩ := failsJustly_iff hr (by decide)
  refine ⟨(hblock _ _ _ hblanks hidentifier hidentifier).2 ⟨trivial, ?_⟩,
    (hitems _ _ _ _ hblanks hidentifier).2 ⟨trivial, ?_⟩⟩
  · rintro - first line ⟨_, _, _, _, _, _, k, _, -, -, -, he, v, hitem⟩
    obtain ⟨f, l, hfail, -⟩ := hnone line he k
    cases hitem.symm.trans hfail
  · rintro - line ⟨_, _, _, k, _, -, he, v, hitem⟩
    obtain ⟨f, l, hfail, -⟩ := hnone line he k
    cases hitem.symm.trans hfail

/-- In `a  ` the block of `a` ends in column 4, which is further right than column 1. Items that
read nothing are missed there all the same, for not being further right. -/
theorem block_unjust :
    ∃ f k, (run noRules 4 (block true blanks identifier (pure .unit))
        (TokenCursor.ofText "a  " 4) : Run Unit _) ⟨(), [], []⟩ = .ok (.fail f, k) ∧
      .indentation .gt ⟨1⟩ ⟨4⟩ ∈ f.error.notes ∧ Relation.gt.satisfies ⟨1⟩ ⟨4⟩ = true :=
  ⟨_, _, rfl, by decide, rfl⟩

example :
    ∃ f k, (run noRules 4 (itemsAt true ⟨1⟩ .gt blanks (pure .unit))
        (TokenCursor.ofText "  " 4) : Run Unit _) ⟨(), [], []⟩ = .ok (.fail f, k) ∧
      .indentation .gt ⟨1⟩ ⟨3⟩ ∈ f.error.notes :=
  ⟨_, _, rfl, by decide⟩

end Grammar

end Descent
