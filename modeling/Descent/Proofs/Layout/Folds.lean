import Descent.Grammar.Basic
import Descent.Layout.Guard
import Descent.Parser.Lexeme
import Descent.Proofs.Alternatives
import Descent.Proofs.Layout.Lines
import Descent.Proofs.Repetition.MaximalRun

/-! Folds and the end of the input. A fold goes on wherever blanks lead further right than its first
token, whether or not a token stands there. Blanks at the end of the input that reach further right
are thus taken for a continuation, and what the body reads next is missed there. -/
namespace Descent

variable {σ C τ α β γ : Type} [Cursor C τ]

namespace Parser

/-- What a fold hands to its body: it skips blanks that lead further right than the reference, and
goes back where they do not. It does not ask whether a token stands there. -/
def continuation (blanks : Parser (Run σ) C τ γ) (reference : Level) :
    Parser (Run σ) C τ Level :=
  attempt (guardLevel blanks .gt reference)

/-- Blanks lead to the end of the input, and that stands further right than the reference. -/
def Overhangs (blanks : Parser (Run σ) C τ γ) (reference : Level) (c : C) (j : Journal σ) : Prop :=
  ∃ u last k, blanks c j = .ok (.ok u last, k) ∧ Cursor.isEnd last = true ∧
    reference.column < (Cursor.level last).column

/-- Blanks lead to the end of the input, and there the item fails where it stands. -/
def AtEnd (blanks : Parser (Run σ) C τ γ) (item : Parser (Run σ) C τ β) (c last : C)
    (j : Journal σ) : Prop :=
  Cursor.isEnd last = true ∧ ∃ u k f l, blanks c j = .ok (.ok u last, k) ∧
    item last k = .ok (.fail f, l) ∧ f.consumedSince last = false

variable {blanks : Parser (Run σ) C τ γ} {item : Parser (Run σ) C τ β} {p : Parser (Run σ) C τ α}
  {reference L : Level} {c d e last : C} {u : γ} {w : α} {v : β} {vs : List β} {f : Failure C τ}
  {n : Nat} {j k l m : Journal σ}

section Continuation

theorem checkLevel_of_right (h : reference.column < (Cursor.level c).column) :
    (checkLevel .gt reference : Parser (Run σ) C τ Level) c j =
      .ok (.ok (Cursor.level c) c, j) := by
  have hright : Relation.gt.satisfies reference (Cursor.level c) = true := decide_eq_true h
  rw [checkLevel, if_pos hright]
  rfl

theorem checkLevel_of_not_right (h : ¬reference.column < (Cursor.level c).column) :
    ∃ m, (checkLevel .gt reference : Parser (Run σ) C τ Level) c j =
      .ok (.fail (indentationFailure c .gt reference), m) := by
  have hleft : ¬Relation.gt.satisfies reference (Cursor.level c) = true := fun hright =>
    h (of_decide_eq_true hright)
  rw [checkLevel, if_neg hleft]
  exact ⟨_, rfl⟩

/-- A fold goes on exactly where blanks lead further right. -/
theorem continuation_eq_ok : continuation blanks reference c j = .ok (.ok L d, k) ↔
    (∃ u, blanks c j = .ok (.ok u d, k)) ∧ reference.column < (Cursor.level d).column ∧
      L = Cursor.level d := by
  rw [continuation, attempt_eq_ok, guardLevel, keepRight, bind_eq_ok]
  constructor
  · rintro ⟨u, line, i, hb, hcheck⟩
    by_cases hright : reference.column < (Cursor.level line).column
    · rw [checkLevel_of_right hright] at hcheck
      cases hcheck
      exact ⟨⟨u, hb⟩, hright, rfl⟩
    · obtain ⟨m, hm⟩ := checkLevel_of_not_right (j := i) hright
      rw [hm] at hcheck
      cases hcheck
  · rintro ⟨⟨u, hb⟩, hright, rfl⟩
    exact ⟨u, d, k, hb, checkLevel_of_right hright⟩

/-- Where it does not go on, nothing has been read. -/
theorem cursor_of_continuation_eq_fail
    (h : continuation blanks reference c j = .ok (.fail f, k)) : f.cursor = c := by
  obtain ⟨g, -, rfl⟩ := attempt_eq_fail.1 h
  rfl

/-- A fold goes on to the end of the input exactly where the blanks overhang. -/
theorem overhangs_iff : Overhangs blanks reference c j ↔
    ∃ L last k, continuation blanks reference c j = .ok (.ok L last, k) ∧
      Cursor.isEnd last = true := by
  simp only [continuation_eq_ok]
  constructor
  · rintro ⟨u, last, k, hb, hend, hright⟩
    exact ⟨_, last, k, ⟨⟨u, hb⟩, hright, rfl⟩, hend⟩
  · rintro ⟨_, last, k, ⟨⟨u, hb⟩, hright, rfl⟩, hend⟩
    exact ⟨u, last, k, hb, hend, hright⟩

/-- Blanks that lead somewhere else than further right are given back. -/
theorem continuation_of_not_right (hb : blanks c j = .ok (.ok u d, k))
    (hright : ¬reference.column < (Cursor.level d).column) :
    ∃ f m, continuation blanks reference c j = .ok (.fail f, m) ∧ f.cursor = c := by
  obtain ⟨m, hm⟩ := checkLevel_of_not_right (j := k) hright
  have hguard : guardLevel blanks .gt reference c j =
      .ok (.fail (indentationFailure d .gt reference), m) :=
    (bind_of_ok hb).trans hm
  exact ⟨_, m, attempt_eq_fail.2 ⟨_, hguard, rfl⟩, rfl⟩

/-- A fold skips blanks and runs its body, which is told how to go on from the level of the first
token. -/
theorem lineFold_ends_iff {body : Parser (Run σ) C τ Level → Parser (Run σ) C τ α}
    {r : Reply C τ α} : lineFold blanks body c j = .ok (r, m) ↔
      (∃ f, blanks c j = .ok (.fail f, m) ∧ r = .fail f) ∨
        ∃ u line k, blanks c j = .ok (.ok u line, k) ∧
          body (continuation blanks (Cursor.level line)) line k = .ok (r, m) :=
  bind_ends_iff

end Continuation

section Rounds

theorem keepRight_continuation (hb : blanks c j = .ok (.ok u d, k))
    (hright : reference.column < (Cursor.level d).column) :
    keepRight (continuation blanks reference) item c j = item d k :=
  bind_of_ok (continuation_eq_ok.2 ⟨⟨u, hb⟩, hright, rfl⟩)

/-- A fold reads what stands on tokens further right, one after the other. -/
theorem Lines.many_eq {r : Reply C τ (List β)}
    (h : Lines blanks item (reference.column < ·.column) c j vs e l)
    (hr : many n (keepRight (continuation blanks reference) item) e l = .ok (r, m)) :
    many (vs.length + n) (keepRight (continuation blanks reference) item) c j =
      .ok (r.map (vs ++ ·), m) := by
  -- on the items: each of them is one round of the loop, from the blanks in front of it on
  induction h with
  | nil => simpa using hr
  | @cons c line d e u v vs j k l i hb hend hright hi h ih =>
    have hround : Succeeds false (keepRight (continuation blanks reference) item) c j v d l :=
      ⟨(keepRight_continuation hb hright).trans hi, nofun⟩
    rw [List.length_cons, Nat.add_right_comm, many, repeated_of_succeeds hround]
    refine (Run.bind_of_ok (ih hr)).trans ?_
    rw [Reply.map_map]
    rfl

/-- Blanks that overhang are skipped, and then the item is missed at the end of the input. -/
theorem AtEnd.many_eq_fail (h : AtEnd blanks item e last j)
    (hover : Overhangs blanks reference e j) (hmoved : Cursor.same last e = false) (n : Nat) :
    ∃ f m, many (n + 1) (keepRight (continuation blanks reference) item) e j =
      .ok (.fail f, m) ∧ f.consumedSince last = false := by
  obtain ⟨-, u, k, f, l, hb, hi, hf⟩ := h
  obtain ⟨_, _, _, hb', -, hright⟩ := hover
  cases hb.symm.trans hb'
  have hfails := (keepRight_continuation hb hright).trans hi
  have hconsumed : f.consumedSince e = true := by
    simpa [Failure.consumedSince, Cursor.same, Failure.offset_eq hf] using hmoved
  refine ⟨f, l, (repeated_of_fail hfails).trans ?_, hf⟩
  rw [if_pos hconsumed]

/-- Blanks that do not overhang are given back, and so are blanks that are none. -/
theorem AtEnd.many_eq_ok (h : AtEnd blanks item e last j)
    (hstops : ¬(Overhangs blanks reference e j ∧ Cursor.same last e = false)) (n : Nat) :
    ∃ m, many (n + 1) (keepRight (continuation blanks reference) item) e j =
      .ok (.ok [] e, m) := by
  obtain ⟨hend, u, k, f, l, hb, hi, hf⟩ := h
  by_cases hright : reference.column < (Cursor.level last).column
  -- then there were no blanks, and the item fails where the round began
  · have hsame : Cursor.same last e = true := by
      simpa using fun hmoved => hstops ⟨⟨u, last, k, hb, hend, hright⟩, hmoved⟩
    have hfails := (keepRight_continuation hb hright).trans hi
    have hconsumed : f.consumedSince e = false := by
      simpa [Failure.consumedSince, Cursor.same, Failure.offset_eq hf] using hsame
    refine ⟨l, (repeated_of_fail hfails).trans ?_⟩
    rw [if_neg (by rw [hconsumed]; exact Bool.false_ne_true)]
  · obtain ⟨f, m, hf, rfl⟩ := continuation_of_not_right hb hright
    refine ⟨m, (repeated_of_fail (bind_of_fail hf)).trans ?_⟩
    rw [if_neg (by rw [f.consumedSince_cursor]; exact Bool.false_ne_true)]

/-- What a fold comes to behind its tokens. -/
theorem lineFold_of_headed {r : Reply C τ (List β)}
    (h : Headed blanks p item (reference.column < ·.column) c j reference w vs e l)
    (hr : many n (keepRight (continuation blanks reference) item) e l = .ok (r, m)) :
    lineFold blanks (fun fold => keepRight p (many (vs.length + n) (keepRight fold item))) c j =
      .ok (r.map (vs ++ ·), m) := by
  obtain ⟨u, line, k, d, i, hb, rfl, hp, hlines⟩ := h
  exact lineFold_ends_iff.2 (.inr ⟨u, line, k, hb, (bind_of_ok hp).trans (hlines.many_eq hr)⟩)

end Rounds

/-- A fold goes on wherever blanks lead further right than its first token, and so to the end of the
input exactly where they overhang. Where it does not go on it has read nothing. Items that are
folded up to the end of the input are therefore read, unless there are blanks behind the last of
them and these overhang; then the fold fails at the end of the input. -/
theorem lineFold_continues_iff (blanks : Parser (Run σ) C τ γ) (c : C) (j : Journal σ) :
    (∀ (body : Parser (Run σ) C τ Level → Parser (Run σ) C τ α) r m,
      lineFold blanks body c j = .ok (r, m) ↔
        (∃ f, blanks c j = .ok (.fail f, m) ∧ r = .fail f) ∨
          ∃ u line k, blanks c j = .ok (.ok u line, k) ∧
            body (continuation blanks (Cursor.level line)) line k = .ok (r, m)) ∧
    (∀ reference d i L e k, continuation blanks reference d i = .ok (.ok L e, k) ↔
      (∃ u, blanks d i = .ok (.ok u e, k)) ∧ reference.column < (Cursor.level e).column ∧
        L = Cursor.level e) ∧
    (∀ reference d i, (∃ L e k, continuation blanks reference d i = .ok (.ok L e, k) ∧
      Cursor.isEnd e = true) ↔ Overhangs blanks reference d i) ∧
    (∀ reference d i f k, continuation blanks reference d i = .ok (.fail f, k) → f.cursor = d) ∧
    ∀ (first : Parser (Run σ) C τ α) (next : Parser (Run σ) C τ β) n reference w vs e i last,
      vs.length < n →
      Headed blanks first next (reference.column < ·.column) c j reference w vs e i →
      AtEnd blanks next e last i →
      ((∃ m, lineFold blanks (fun fold => keepRight first (many n (keepRight fold next))) c j =
        .ok (.ok vs e, m)) ↔ ¬(Overhangs blanks reference e i ∧ Cursor.same last e = false)) ∧
      ((∃ f m, lineFold blanks (fun fold => keepRight first (many n (keepRight fold next))) c j =
        .ok (.fail f, m) ∧ f.consumedSince last = false) ↔
          Overhangs blanks reference e i ∧ Cursor.same last e = false) := by
  refine ⟨fun _ _ _ => lineFold_ends_iff, fun _ _ _ _ _ _ => continuation_eq_ok,
    fun _ _ _ => overhangs_iff.symm, fun _ _ _ _ _ => cursor_of_continuation_eq_fail, ?_⟩
  intro first next n reference w vs e i last hn hheaded hatEnd
  obtain ⟨n, rfl⟩ := Nat.exists_eq_add_of_lt hn
  by_cases hover : Overhangs blanks reference e i ∧ Cursor.same last e = false
  · obtain ⟨f, m, hr, hf⟩ := hatEnd.many_eq_fail hover.1 hover.2 n
    have hrun := lineFold_of_headed hheaded hr
    refine ⟨⟨?_, fun h => absurd hover h⟩, ⟨fun _ => hover, fun _ => ⟨f, m, hrun, hf⟩⟩⟩
    rintro ⟨_, h⟩
    cases hrun.symm.trans h
  · obtain ⟨m, hr⟩ := hatEnd.many_eq_ok hover n
    have hrun := lineFold_of_headed hheaded hr
    rw [Reply.map, List.append_nil] at hrun
    refine ⟨⟨fun _ => hover, fun _ => ⟨m, hrun⟩⟩, ⟨?_, fun h => absurd h hover⟩⟩
    rintro ⟨_, _, h, -⟩
    cases hrun.symm.trans h

def folded : Parser (Run Unit) (TokenCursor Char) Char (List String) :=
  lineFold (.blanks 8) fun fold =>
    keepRight (identifier 8) (many 8 (keepRight fold (identifier 8)))

/-- A line break behind the last name leads to the first column, and the fold ends in front of
it. -/
theorem lineFold_continues_lineBreak :
    AtEnd (.blanks 8) (identifier 8) ((TokenCursor.ofText "a b\n" 4).forward 3)
        ((TokenCursor.ofText "a b\n" 4).forward 4) (⟨(), [], []⟩ : Journal Unit) ∧
      ∃ m, folded (TokenCursor.ofText "a b\n" 4) ⟨(), [], []⟩ =
        .ok (.ok ["b"] ((TokenCursor.ofText "a b\n" 4).forward 3), m) := by
  have hheaded : Headed (.blanks 8) (identifier 8) (identifier 8) ((1 : Nat) < ·.column)
      (TokenCursor.ofText "a b\n" 4) (⟨(), [], []⟩ : Journal Unit) ⟨1⟩ "a" ["b"]
      ((TokenCursor.ofText "a b\n" 4).forward 3) ⟨(), [], []⟩ :=
    ⟨_, _, _, _, _, rfl, rfl, rfl, .cons rfl rfl (by decide) rfl .nil⟩
  have hatEnd : AtEnd (.blanks 8) (identifier 8) ((TokenCursor.ofText "a b\n" 4).forward 3)
      ((TokenCursor.ofText "a b\n" 4).forward 4) (⟨(), [], []⟩ : Journal Unit) :=
    ⟨rfl, _, _, _, _, rfl, rfl, rfl⟩
  have hblanks : (Parser.blanks 8 : Parser (Run Unit) _ Char Unit)
      ((TokenCursor.ofText "a b\n" 4).forward 3) ⟨(), [], []⟩ =
        .ok (.ok () ((TokenCursor.ofText "a b\n" 4).forward 4), ⟨(), [], []⟩) := rfl
  have hstops : ¬Overhangs (.blanks 8) ⟨1⟩ ((TokenCursor.ofText "a b\n" 4).forward 3)
      (⟨(), [], []⟩ : Journal Unit) := by
    rintro ⟨_, _, _, hb, -, hright⟩
    cases hblanks.symm.trans hb
    exact absurd hright (by decide)
  obtain ⟨-, -, -, -, hfolds⟩ := lineFold_continues_iff (α := String) (β := String) (.blanks 8)
    (TokenCursor.ofText "a b\n" 4) (⟨(), [], []⟩ : Journal Unit)
  exact ⟨hatEnd, (hfolds _ _ 8 ⟨1⟩ "a" ["b"] _ _ _ (by decide) hheaded hatEnd).1.2
    fun h => hstops h.1⟩

/-- Spaces behind the last name lead further right than the first. The fold goes on to the end of
the input, and the name that is missed there is an error. -/
theorem folded_trailing_blanks :
    (∃ k, folded (TokenCursor.ofText "a b" 4) ⟨(), [], []⟩ =
      .ok (.ok ["b"] ((TokenCursor.ofText "a b" 4).forward 3), k)) ∧
    (∃ f k, folded (TokenCursor.ofText "a b  " 4) ⟨(), [], []⟩ = .ok (.fail f, k)) ∧
    ∃ L e k, continuation (.blanks 8) ⟨1⟩ ((TokenCursor.ofText "a b  " 4).forward 3)
      (⟨(), [], []⟩ : Journal Unit) = .ok (.ok L e, k) ∧ Cursor.isEnd e = true :=
  ⟨⟨_, rfl⟩, ⟨_, _, rfl⟩, _, _, _, rfl, rfl⟩

end Parser

end Descent
