import Descent.Parser.Lexeme
import Descent.Proofs.Repetition.MaximalRun

/-! Longest runs of characters, over cursors of any kind. The tokens that a cursor passes on its way
to the end are what is left of the input there; a repeated parser of a class of characters reads the
longest run of these that the input begins with. -/
namespace Descent

section Crossing

variable {σ C τ : Type} [Cursor C τ] [Advance (Run σ) C] {c d : C} {t : τ} {text more : List τ}
  {j k : Journal σ}

namespace Cursor

def Steps (c : C) (j : Journal σ) (t : τ) (d : C) (k : Journal σ) : Prop :=
  current c = some t ∧ (advance c : Run σ C) j = .ok (d, k)

def Crosses : C → Journal σ → List τ → C → Journal σ → Prop := Parser.Rounds Steps

/-- What is left of the input at `c` is `text`: these tokens are passed on the way to the end. -/
def Holds (c : C) (j : Journal σ) (text : List τ) : Prop :=
  ∃ bound passed last k, (drain bound c : Run σ (List (τ × Position) × C)) j =
    .ok ((passed, last), k) ∧ passed.map Prod.fst = text

theorem drain_of_none (h : current c = none) (bound : Nat) :
    (drain (bound + 1) c : Run σ (List (τ × Position) × C)) j = .ok (([], c), j) := by
  simp only [drain, h]
  rfl

theorem drain_of_steps (h : Steps c j t d k) (bound : Nat) :
    (drain (bound + 1) c : Run σ (List (τ × Position) × C)) j =
      (do
        let (passed, last) ← drain bound d
        return ((t, position d) :: passed, last) : Run σ (List (τ × Position) × C)) k := by
  obtain ⟨ht, hd⟩ := h
  simp only [drain, ht]
  exact Run.bind_of_ok hd

theorem holds_of_none (h : current c = none) (j : Journal σ) : Holds c j [] :=
  ⟨1, [], c, j, drain_of_none h 0, rfl⟩

theorem Holds.cons (h : Steps c j t d k) (hmore : Holds d k more) : Holds c j (t :: more) := by
  obtain ⟨bound, passed, last, l, hdrain, rfl⟩ := hmore
  refine ⟨bound + 1, (t, position d) :: passed, last, l, ?_, rfl⟩
  rw [drain_of_steps h]
  exact Run.bind_of_ok hdrain

/-- Nothing is left of the input, or a token that can be passed and what is behind it. -/
theorem Holds.nil_or_cons (h : Holds c j text) : (current c = none ∧ text = []) ∨
    ∃ t d k more, Steps c j t d k ∧ Holds d k more ∧ text = t :: more := by
  obtain ⟨_ | bound, passed, last, l, hdrain, rfl⟩ := h
  · cases hdrain
  · cases hc : current c with
    | none =>
      rw [drain_of_none hc] at hdrain
      cases hdrain
      exact .inl ⟨rfl, rfl⟩
    | some t =>
      have hmoved := hdrain
      simp only [drain, hc] at hmoved
      obtain ⟨d, k, hd, -⟩ := Run.bind_eq_ok.1 hmoved
      rw [drain_of_steps ⟨hc, hd⟩] at hdrain
      obtain ⟨⟨behind, e⟩, i, hbehind, hpure⟩ := Run.bind_eq_ok.1 hdrain
      cases hpure
      exact .inr ⟨t, d, k, _, ⟨hc, hd⟩, ⟨bound, behind, last, l, hbehind, rfl⟩, rfl⟩

theorem Holds.current_eq (h : Holds c j text) : current c = text.head? := by
  obtain ⟨hc, rfl⟩ | ⟨t, d, k, more, ht, -, rfl⟩ := h.nil_or_cons
  · exact hc
  · exact ht.1

/-- A text that the input begins with is crossed, and what is behind it is left. -/
theorem Holds.split (h : Holds c j (text ++ more)) :
    ∃ d k, Crosses c j text d k ∧ Holds d k more := by
  induction text generalizing c j with
  | nil => exact ⟨c, j, .nil, h⟩
  | cons t text ih =>
    obtain ⟨-, hnil⟩ | ⟨u, d, k, behind, hu, hbehind, htext⟩ := h.nil_or_cons
    · cases hnil
    · cases htext
      obtain ⟨e, l, hcross, hmore⟩ := ih hbehind
      exact ⟨e, l, .cons hu hcross, hmore⟩

end Cursor

/-- A cursor over tokens in memory holds those it has not passed. -/
theorem TokenCursor.holds_rest (c : TokenCursor τ) (j : Journal σ) : Cursor.Holds c j c.rest := by
  obtain ⟨source, rest, position, rule⟩ := c
  induction rest generalizing position with
  | nil => exact Cursor.holds_of_none rfl j
  | cons t rest ih => exact .cons ⟨rfl, rfl⟩ (ih _)

end Crossing

variable {σ C : Type} [Cursor C Char] [Advance (Run σ) C] {k : CharClass} {c d : C} {t : Char}
  {text more : List Char} {n : Nat} {i j l m : Journal σ}

open Cursor (Steps Crosses Holds current)

namespace CharClass

def Absent (k : CharClass) (c : C) : Prop := ∀ t, current c = some t → k.test t = false

/-- From `c` to `d` there is the longest run of characters of the class. -/
structure LongestRun (k : CharClass) (c : C) (j : Journal σ) (text : List Char) (d : C)
    (l : Journal σ) : Prop where
  crosses : Crosses c j text d l
  test_of_mem : ∀ t ∈ text, k.test t = true
  absent : k.Absent d

/-- One character of the class is between `c` and `d`, or none is next and the two are the same. -/
inductive AtMostOne (k : CharClass) (c : C) (j : Journal σ) :
    Option Char → C → Journal σ → Prop where
  | one {t : Char} {d : C} {l : Journal σ} (ht : Steps c j t d l) (htest : k.test t = true) :
    AtMostOne k c j (some t) d l
  | none (h : k.Absent c) : AtMostOne k c j none c j

theorem LongestRun.nil (h : k.Absent c) (j : Journal σ) : k.LongestRun c j [] c j :=
  ⟨.nil, List.forall_mem_nil _, h⟩

/-- A run is the longest where what is left behind it begins with nothing of the class. -/
theorem longestRun_of_holds (h : Holds c j (text ++ more)) (htext : ∀ t ∈ text, k.test t = true)
    (hmore : ∀ t ∈ more.head?, k.test t = false) :
    ∃ d l, k.LongestRun c j text d l ∧ Holds d l more := by
  obtain ⟨d, l, hcross, hleft⟩ := h.split
  refine ⟨d, l, ⟨hcross, htext, fun t ht => hmore t ?_⟩, hleft⟩
  rwa [← hleft.current_eq]

/-- Every input begins with a longest run. -/
theorem exists_longestRun (k : CharClass) (h : Holds c j text) :
    ∃ d l, k.LongestRun c j (text.takeWhile k.test) d l ∧ Holds d l (text.dropWhile k.test) := by
  apply longestRun_of_holds
  · rwa [List.takeWhile_append_dropWhile]
  · intro t ht
    exact List.all_eq_true.1 List.all_takeWhile t ht
  · intro t ht
    have hstop := List.head?_dropWhile_not k.test text
    rw [Option.mem_def.1 ht] at hstop
    simpa using hstop

end CharClass

namespace Parser

def mismatch (label : String) (c : C) : Failure C Char :=
  ⟨.found (Cursor.position c) ((current c).elim .endOfInput .token) (.label label), c⟩

theorem consumedSince_mismatch (label : String) (c : C) :
    (mismatch label c).consumedSince c = false := by
  simp [mismatch, Failure.consumedSince, Cursor.same]

theorem charOf_of_steps (h : Steps c j t d l) (htest : k.test t = true) :
    (charOf k : Parser (Run σ) C Char Char) c j = .ok (.ok t d, l) := by
  obtain ⟨ht, hd⟩ := h
  simp only [charOf, accept, ht, char?_char, Option.filter_some, htest, if_true]
  exact Run.bind_of_ok hd

theorem charOf_of_absent (h : k.Absent c) (j : Journal σ) :
    (charOf k : Parser (Run σ) C Char Char) c j = .ok (.fail (mismatch k.label c), j) := by
  cases hc : current c with
  | none =>
    simp only [charOf, accept, mismatch, hc]
    rfl
  | some t =>
    simp only [charOf, accept, mismatch, hc, char?_char, Option.filter_some, h t hc,
      Bool.false_eq_true, if_false]
    rfl

/-- A parser of a class reads one character of it, or fails where it stands. -/
theorem charOf_ends_iff {r : Reply C Char Char} :
    (charOf k : Parser (Run σ) C Char Char) c j = .ok (r, l) ↔
      (∃ t d, Steps c j t d l ∧ k.test t = true ∧ r = .ok t d) ∨
        k.Absent c ∧ r = .fail (mismatch k.label c) ∧ l = j := by
  constructor
  · intro h
    by_cases habsent : k.Absent c
    · rw [charOf_of_absent habsent] at h
      cases h
      exact .inr ⟨habsent, rfl, rfl⟩
    · simp only [CharClass.Absent, not_forall, Bool.not_eq_false] at habsent
      obtain ⟨t, ht, htest⟩ := habsent
      have hmoved := h
      simp only [charOf, accept, ht, char?_char, Option.filter_some, htest, if_true] at hmoved
      obtain ⟨d, i, hd, -⟩ := Run.bind_eq_ok.1 hmoved
      rw [charOf_of_steps ⟨ht, hd⟩ htest] at h
      cases h
      exact .inl ⟨t, d, ⟨ht, hd⟩, htest, rfl⟩
  · rintro (⟨t, d, ht, htest, rfl⟩ | ⟨habsent, rfl, rfl⟩)
    · exact charOf_of_steps ht htest
    · exact charOf_of_absent habsent _

/-- Successes of a parser of a class are a text of that class. -/
theorem successes_charOf_iff :
    Successes false (charOf k : Parser (Run σ) C Char Char) c j text d l ↔
      Crosses c j text d l ∧ ∀ t ∈ text, k.test t = true := by
  constructor
  · intro h
    induction h with
    | nil => exact ⟨.nil, nofun⟩
    | cons hv _ ih =>
      obtain ⟨t, e, ht, htest, ⟨⟩⟩ | ⟨-, ⟨⟩, -⟩ := charOf_ends_iff.1 hv.1
      exact ⟨.cons ht ih.1, List.forall_mem_cons.2 ⟨htest, ih.2⟩⟩
  · rintro ⟨hcross, htest⟩
    induction hcross with
    | nil => exact .nil
    | cons ht _ ih =>
      obtain ⟨hfirst, hrest⟩ := List.forall_mem_cons.1 htest
      exact .cons ⟨charOf_of_steps ht hfirst, nofun⟩ (ih hrest)

/-- A repeated parser of a class reads a longest run, whatever the run. -/
theorem many_charOf_iff {r : Reply C Char (List Char)} :
    many n (charOf k : Parser (Run σ) C Char Char) c j = .ok (r, m) ↔
      ∃ text d, text.length < n ∧ k.LongestRun c j text d m ∧ r = .ok text d := by
  constructor
  · intro h
    cases r with
    | ok text d =>
      obtain ⟨hn, i, f, htext, hf, -⟩ := repeated_eq_ok_iff.1 h
      obtain ⟨_, _, _, _, ⟨⟩⟩ | ⟨habsent, -, rfl⟩ := charOf_ends_iff.1 hf
      obtain ⟨hcross, htest⟩ := successes_charOf_iff.1 htext
      exact ⟨text, d, hn, ⟨hcross, htest, habsent⟩, rfl⟩
    | fail f =>
      obtain ⟨_, d, _, -, -, hf, hcommit⟩ := many_eq_fail_iff.1 h
      obtain ⟨_, _, _, _, ⟨⟩⟩ | ⟨-, ⟨⟩, -⟩ := charOf_ends_iff.1 hf
      cases (consumedSince_mismatch k.label d).symm.trans hcommit
  · rintro ⟨text, d, hn, ⟨hcross, htest, habsent⟩, rfl⟩
    exact repeated_eq_ok_iff.2 ⟨hn, m, mismatch k.label d, successes_charOf_iff.2 ⟨hcross, htest⟩,
      charOf_of_absent habsent m, consumedSince_mismatch k.label d⟩

/-- The same with at least one character: an empty run is a failure. -/
theorem many1_charOf_iff {r : Reply C Char (List Char)} :
    many1 n (charOf k : Parser (Run σ) C Char Char) c j = .ok (r, m) ↔
      ∃ text d, text.length ≤ n ∧ k.LongestRun c j text d m ∧
        r = if text = [] then .fail (mismatch k.label d) else .ok text d := by
  constructor
  · intro h
    obtain ⟨f, hf, rfl⟩ | ⟨v, e, i, hv, hmore⟩ := bind_ends_iff.1 h
    · obtain ⟨_, _, _, _, ⟨⟩⟩ | ⟨habsent, ⟨⟩, rfl⟩ := charOf_ends_iff.1 hf
      exact ⟨[], c, Nat.zero_le n, .nil habsent _, rfl⟩
    · obtain ⟨s, hs, rfl⟩ := map_ends_iff.1 hmore
      obtain ⟨text, d, hn, hrun, rfl⟩ := many_charOf_iff.1 hs
      obtain ⟨t, _, ht, htest, ⟨⟩⟩ | ⟨-, ⟨⟩, -⟩ := charOf_ends_iff.1 hv
      have hall : ∀ t ∈ v :: text, k.test t = true :=
        List.forall_mem_cons.2 ⟨htest, hrun.test_of_mem⟩
      exact ⟨v :: text, d, hn, ⟨.cons ht hrun.crosses, hall, hrun.absent⟩, rfl⟩
  · rintro ⟨_ | ⟨t, text⟩, d, hn, ⟨hcross, htest, habsent⟩, rfl⟩
    · obtain ⟨rfl, rfl⟩ := rounds_nil_iff.1 hcross
      exact bind_of_fail (charOf_of_absent habsent _)
    · obtain ⟨e, i, ht, hcross⟩ := rounds_cons_iff.1 hcross
      obtain ⟨hfirst, hrest⟩ := List.forall_mem_cons.1 htest
      have hmany := many_charOf_iff.2 ⟨text, d, hn, ⟨hcross, hrest, habsent⟩, rfl⟩
      exact (bind_of_ok (charOf_of_steps ht hfirst)).trans (map_ends_iff.2 ⟨_, hmany, rfl⟩)

theorem optional_charOf_iff {r : Reply C Char (Option Char)} :
    (optional (charOf k) : Parser (Run σ) C Char (Option Char)) c j = .ok (r, m) ↔
      ∃ s d, k.AtMostOne c j s d m ∧ r = .ok s d := by
  constructor
  · intro h
    obtain ⟨s, i, hs, hreply⟩ := Run.bind_eq_ok.1 h
    obtain ⟨t, d, ht, htest, rfl⟩ | ⟨habsent, rfl, rfl⟩ := charOf_ends_iff.1 hs
    · cases hreply
      exact ⟨some t, d, .one ht htest, rfl⟩
    · dsimp only at hreply
      rw [consumedSince_mismatch, if_neg Bool.false_ne_true] at hreply
      cases hreply
      exact ⟨none, c, .none habsent, rfl⟩
  · rintro ⟨s, d, hs, rfl⟩
    cases hs with
    | one ht htest => exact Run.bind_of_ok (charOf_of_steps ht htest)
    | none habsent =>
      rw [optional, Run.bind_of_ok (charOf_of_absent habsent j)]
      dsimp only
      rw [consumedSince_mismatch, if_neg Bool.false_ne_true]
      rfl

end Parser

end Descent
