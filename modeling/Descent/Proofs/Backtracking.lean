import Descent.Parser.Lookahead
import Descent.Proofs.Alternatives
import Descent.Proofs.Answers
import Descent.Proofs.Furthest
import Mathlib.Data.List.Perm.Basic
import Mathlib.Order.Bounds.Basic

/-! Alternatives that backtrack. Where every alternative returns to the start when it fails, the
list of them succeeds as the first parser that does. Where all fail, nothing has been consumed, the
error is that of the parsers that got furthest, and their order matters only for the order of what
the error lists. -/
namespace Descent

namespace ParseError.Joined

variable {τ : Type} {es : List (ParseError τ)} {m : ParseError τ}

/-- Joined errors stand at the greatest of their offsets. -/
theorem isGreatest (h : Joined es m) : IsGreatest {n | ∃ e ∈ es, e.offset = n} m.offset := by
  obtain ⟨first, hfirst, -⟩ := h.exists_winner
  obtain ⟨hmem, hrank⟩ := mem_winners.1 hfirst
  refine ⟨⟨first, hmem, (rank_eq_iff.1 hrank).1⟩, ?_⟩
  rintro _ ⟨e, he, rfl⟩
  rcases rank_le_iff.1 (h.le e he) with hlt | ⟨heq, -⟩
  · exact hlt.le
  · exact heq.le

/-- Where no error explains itself at that offset, all that is expected there is. -/
theorem expected_iff (h : Joined es m)
    (hplain : ∀ e ∈ es, e.offset = m.offset → e.isExplained = false) :
    m.isExplained = false ∧
      ∀ s, s ∈ m.expected ↔ ∃ e ∈ es, e.offset = m.offset ∧ s ∈ e.expected := by
  have hmismatch : m.isExplained = false := by
    obtain ⟨first, hfirst, -⟩ := h.exists_winner
    obtain ⟨hmem, hrank⟩ := mem_winners.1 hfirst
    obtain ⟨hoffset, hkind⟩ := rank_eq_iff.1 hrank
    rw [← hkind, hplain first hmem hoffset]
  refine ⟨hmismatch, fun s => ?_⟩
  rw [h.expected]
  constructor
  · rintro ⟨e, he, hs⟩
    obtain ⟨hmem, hrank⟩ := mem_winners.1 he
    exact ⟨e, hmem, (rank_eq_iff.1 hrank).1, hs⟩
  · rintro ⟨e, hmem, hoffset, hs⟩
    have hkind : e.isExplained = m.isExplained := (hplain e hmem hoffset).trans hmismatch.symm
    exact ⟨e, mem_winners.2 ⟨hmem, rank_eq_iff.2 ⟨hoffset, hkind⟩⟩, hs⟩

end ParseError.Joined

namespace Parser

variable {σ C τ α : Type} {c : C} {p q : Parser (Run σ) C τ α}
  {ps qs before : List (Parser (Run σ) C τ α)} {f : Failure C τ} {e : ParseError τ}
  {es : List (ParseError τ)} {j k l : Journal σ}

/-- Parsers that all fail from `c`, when they are run one after another, and their errors. -/
inductive FailInTurn (c : C) : Journal σ → List (Parser (Run σ) C τ α) → List (ParseError τ) →
    Journal σ → Prop where
  | nil {j : Journal σ} : FailInTurn c j [] [] j
  | cons {p : Parser (Run σ) C τ α} {more : List (Parser (Run σ) C τ α)} {f : Failure C τ}
      {es : List (ParseError τ)} {j k l : Journal σ} (hp : p c j = .ok (.fail f, k))
      (h : FailInTurn c k more es l) : FailInTurn c j (p :: more) (f.error :: es) l

/-- Parsers that are run in turn all fail, or there is a first one that does not. -/
theorem failInTurn_or_first (c : C) (j : Journal σ) (ps : List (Parser (Run σ) C τ α)) :
    (∃ es k, FailInTurn c j ps es k) ∨
      ∃ before q after es l, ps = before ++ q :: after ∧ FailInTurn c j before es l ∧
        ∀ f k, q c l ≠ .ok (.fail f, k) := by
  -- on the parsers; each of them is run in the state that the one before it left
  induction ps generalizing j with
  | nil => exact .inl ⟨[], j, .nil⟩
  | cons p ps ih =>
    by_cases hp : ∃ f k, p c j = .ok (.fail f, k)
    · obtain ⟨f, k, hp⟩ := hp
      rcases ih k with ⟨es, l, h⟩ | ⟨before, q, after, es, l, rfl, h, hq⟩
      · exact .inl ⟨_, l, .cons hp h⟩
      · exact .inr ⟨p :: before, q, after, _, l, rfl, .cons hp h, hq⟩
    · refine .inr ⟨[], p, ps, [], j, rfl, .nil, fun f k h => hp ⟨f, k, h⟩⟩

theorem attempt_of_not_fail (h : ∀ f k, p c j ≠ .ok (.fail f, k)) : attempt p c j = p c j := by
  change (p c j >>= fun r => _) = _
  rcases hp : p c j with _ | ⟨⟨v, d⟩ | f, k⟩
  · rfl
  · rfl
  · exact absurd hp (h f k)

section Lists

variable [Cursor C τ] [DecidableEq τ]

/-- Attempts that fail are passed over, and their errors merged. -/
theorem FailInTurn.passedOver (h : FailInTurn c j ps es k) (e : ParseError τ) :
    PassedOver c (some ⟨e, c⟩) j (ps.map attempt) (some ⟨es.foldl ParseError.merge e, c⟩) k := by
  induction h generalizing e with
  | nil => exact .nil
  | @cons p more f es j k l hp _ ih =>
    refine .cons (attempt_eq_fail.2 ⟨f, hp, rfl⟩) (f.rewind c).consumedSince_cursor ?_
    have hmerge : (f.rewind c).after (some ⟨e, c⟩) = ⟨e.merge f.error, c⟩ := by
      simp [Failure.after, Failure.merge, Failure.rewind]
    rw [hmerge]
    exact ih (e.merge f.error)

theorem FailInTurn.passedOver_first (h : FailInTurn c j (p :: ps) (e :: es) k) :
    PassedOver c none j ((p :: ps).map attempt) (some ⟨es.foldl ParseError.merge e, c⟩) k := by
  cases h with
  | cons hp h =>
    exact .cons (attempt_eq_fail.2 ⟨_, hp, rfl⟩) (Failure.consumedSince_cursor _) (h.passedOver _)

theorem choice_attempt_of_failInTurn (h : FailInTurn c j (p :: ps) (e :: es) k) :
    choice ((p :: ps).map attempt) c j = .ok (.fail ⟨es.foldl ParseError.merge e, c⟩, k) := by
  have hpass := choiceAfter_of_passedOver h.passedOver_first []
  rw [List.append_nil] at hpass
  exact hpass

theorem choice_attempt_of_first (h : FailInTurn c j before es l)
    (hq : ∀ f k, q c l ≠ .ok (.fail f, k)) (after : List (Parser (Run σ) C τ α)) :
    choice ((before ++ q :: after).map attempt) c j = q c l := by
  have hsettled : Settled c (attempt q c l) := by
    rw [attempt_of_not_fail hq]
    rcases settled_or_passed c (q c l) with h | ⟨f, k, h, -⟩
    · exact h
    · exact absurd h (hq f k)
  have hpass : ∃ failed, PassedOver c none j (before.map attempt) failed l := by
    cases h with
    | nil => exact ⟨none, .nil⟩
    | cons hp h => exact ⟨_, (FailInTurn.cons hp h).passedOver_first⟩
  obtain ⟨failed, hpass⟩ := hpass
  rw [List.map_append, List.map_cons, choice, choiceAfter_of_passedOver hpass,
    choiceAfter_of_settled hsettled, attempt_of_not_fail hq]

/-- How a list of attempts ends. -/
theorem choice_attempt_cases (p : Parser (Run σ) C τ α) (ps : List (Parser (Run σ) C τ α)) (c : C)
    (j : Journal σ) :
    (∃ e es k, FailInTurn c j (p :: ps) (e :: es) k ∧
      choice ((p :: ps).map attempt) c j = .ok (.fail ⟨es.foldl ParseError.merge e, c⟩, k)) ∨
    ∃ before q after es l, p :: ps = before ++ q :: after ∧ FailInTurn c j before es l ∧
      (∀ f k, q c l ≠ .ok (.fail f, k)) ∧ choice ((p :: ps).map attempt) c j = q c l := by
  rcases failInTurn_or_first c j (p :: ps) with ⟨es, k, h⟩ | ⟨before, q, after, es, l, hps, h, hq⟩
  · obtain ⟨e, es, rfl⟩ : ∃ e es', es = e :: es' := by
      cases h
      exact ⟨_, _, rfl⟩
    exact .inl ⟨e, es, k, h, choice_attempt_of_failInTurn h⟩
  · refine .inr ⟨before, q, after, es, l, hps, h, hq, ?_⟩
    rw [hps]
    exact choice_attempt_of_first h hq after

end Lists

section Answers

variable {S : Set (Journal σ)}

def FailsWith (S : Set (Journal σ)) (c : C) (p : Parser (Run σ) C τ α) (e : ParseError τ) : Prop :=
  ∃ f, Answers S p c (.fail f) ∧ f.error = e

theorem rightUnique_failsWith (hj : j ∈ S) :
    Relator.RightUnique (FailsWith S c : Parser (Run σ) C τ α → ParseError τ → Prop) := by
  rintro p _ _ ⟨f, hf, rfl⟩ ⟨g, hg, rfl⟩
  cases hf.unique hg hj
  rfl

/-- Parsers with one answer each fail in turn with the errors of their answers. -/
theorem FailInTurn.forall₂ (h : FailInTurn c j ps es k) (hr : ∀ q ∈ ps, ∃ r, Answers S q c r)
    (hj : j ∈ S) : k ∈ S ∧ List.Forall₂ (FailsWith S c) ps es := by
  induction h with
  | nil => exact ⟨hj, .nil⟩
  | @cons p more f es j k l hp _ ih =>
    rw [List.forall_mem_cons] at hr
    obtain ⟨⟨r, hr⟩, hmore⟩ := hr
    obtain ⟨rfl, hk⟩ := hr.eq_of_run hj hp
    obtain ⟨hl, hes⟩ := ih hmore hk
    exact ⟨hl, .cons ⟨f, hr, rfl⟩ hes⟩

theorem failInTurn_of_forall₂ (h : List.Forall₂ (FailsWith S c) ps es) (hj : j ∈ S) :
    ∃ k, FailInTurn c j ps es k := by
  induction h generalizing j with
  | nil => exact ⟨j, .nil⟩
  | cons hp _ ih =>
    obtain ⟨f, hf, rfl⟩ := hp
    obtain ⟨k, hk, hf⟩ := hf j hj
    obtain ⟨l, h⟩ := ih hk
    exact ⟨l, .cons hf h⟩

/-- Every parser has its error in the list, and every error there is that of a parser. -/
theorem failsWith_of_forall₂ (h : List.Forall₂ (FailsWith S c) ps es) :
    (∀ q ∈ ps, ∃ e ∈ es, FailsWith S c q e) ∧ ∀ e ∈ es, ∃ q ∈ ps, FailsWith S c q e := by
  induction h with
  | nil => exact ⟨List.forall_mem_nil _, List.forall_mem_nil _⟩
  | @cons p e ps es hp _ ih =>
    rw [List.forall_mem_cons, List.forall_mem_cons]
    refine ⟨⟨⟨e, List.mem_cons_self, hp⟩, fun q hq => ?_⟩,
      ⟨p, List.mem_cons_self, hp⟩, fun e' he => ?_⟩
    · obtain ⟨e', he, h⟩ := ih.1 q hq
      exact ⟨e', List.mem_cons_of_mem _ he, h⟩
    · obtain ⟨q, hq, h⟩ := ih.2 e' he
      exact ⟨q, List.mem_cons_of_mem _ hq, h⟩

/-- In another order the same parsers fail with the same errors in another order. -/
theorem FailInTurn.of_perm (h : FailInTurn c j ps es k) (hp : ps.Perm qs)
    (hr : ∀ q ∈ ps, ∃ r, Answers S q c r) (hj : j ∈ S) :
    ∃ fs l, FailInTurn c j qs fs l ∧ es.Perm fs := by
  obtain ⟨fs, hqs, hperm⟩ := List.perm_comp_forall₂ hp.symm (h.forall₂ hr hj).2
  obtain ⟨l, h'⟩ := failInTurn_of_forall₂ hqs hj
  exact ⟨fs, l, h', hperm.symm⟩

end Answers

section Choice

variable [Cursor C τ] [DecidableEq τ] {S : Set (Journal σ)}

theorem choice_attempt_eq_ok (p : Parser (Run σ) C τ α) (ps : List (Parser (Run σ) C τ α)) (c d : C)
    (v : α) (j k : Journal σ) : choice ((p :: ps).map attempt) c j = .ok (.ok v d, k) ↔
      ∃ before q after es l, p :: ps = before ++ q :: after ∧ FailInTurn c j before es l ∧
        q c l = .ok (.ok v d, k) := by
  constructor
  · intro h
    rcases choice_attempt_cases p ps c j with
      ⟨e, es, l, -, hc⟩ | ⟨before, q, after, es, l, hps, hbefore, -, hc⟩
    · rw [h] at hc
      cases hc
    · exact ⟨before, q, after, es, l, hps, hbefore, hc.symm.trans h⟩
  · rintro ⟨before, q, after, es, l, hps, h, hq⟩
    rw [hps, choice_attempt_of_first h (by simp [hq]), hq]

/-- A list of attempts fails where it started, with the errors of all its parsers joined. -/
theorem choice_attempt_eq_fail (p : Parser (Run σ) C τ α) (ps : List (Parser (Run σ) C τ α)) (c : C)
    (f : Failure C τ) (j k : Journal σ) :
    choice ((p :: ps).map attempt) c j = .ok (.fail f, k) ↔
      ∃ e es, FailInTurn c j (p :: ps) (e :: es) k ∧ f = ⟨es.foldl ParseError.merge e, c⟩ := by
  constructor
  · intro h
    rcases choice_attempt_cases p ps c j with
      ⟨e, es, l, hfail, hc⟩ | ⟨before, q, after, es, l, -, -, hq, hc⟩
    · rw [h] at hc
      cases hc
      exact ⟨e, es, hfail, rfl⟩
    · exact absurd (hc.symm.trans h) (hq f k)
  · rintro ⟨e, es, h, rfl⟩
    exact choice_attempt_of_failInTurn h

/-- Parsers with one answer each: the list of their attempts answers, and it has a value if one of
them has. -/
theorem choice_attempt_of_answers (hr : ∀ q ∈ p :: ps, ∃ r, Answers S q c r) (hj : j ∈ S) :
    (∃ r, ∃ k ∈ S, choice ((p :: ps).map attempt) c j = .ok (r, k)) ∧
      ((∃ v d k, choice ((p :: ps).map attempt) c j = .ok (.ok v d, k)) ↔
        ∃ q ∈ p :: ps, ∃ v d, Answers S q c (.ok v d)) := by
  rcases choice_attempt_cases p ps c j with
    ⟨e, es, k, h, hc⟩ | ⟨before, q, after, es, l, hps, h, hq, hc⟩
  · obtain ⟨hk, hes⟩ := h.forall₂ hr hj
    refine ⟨⟨_, k, hk, hc⟩, ?_⟩
    rw [hc]
    constructor
    · rintro ⟨v, d, l, h⟩
      cases h
    · rintro ⟨q, hq, v, d, hv⟩
      obtain ⟨e, -, f, hf, -⟩ := (failsWith_of_forall₂ hes).1 q hq
      cases hv.unique hf hj
  · rw [hps] at hr
    simp only [List.forall_mem_append, List.forall_mem_cons] at hr
    obtain ⟨hbefore, ⟨r, hr⟩, -⟩ := hr
    obtain ⟨hl, -⟩ := h.forall₂ hbefore hj
    obtain ⟨k, hk, hqk⟩ := hr l hl
    refine ⟨⟨r, k, hk, hc.trans hqk⟩, ?_⟩
    cases r with
    | fail f => exact absurd hqk (hq f k)
    | ok v d =>
      refine ⟨fun _ => ⟨q, ?_, v, d, hr⟩, fun _ => ⟨v, d, k, hc.trans hqk⟩⟩
      rw [hps]
      exact List.mem_append_right _ List.mem_cons_self

/-- In another order, attempts that all fail give the same error rearranged. -/
theorem choice_attempt_of_perm (hr : ∀ q ∈ p :: ps, ∃ r, Answers S q c r) (hj : j ∈ S)
    (h : choice ((p :: ps).map attempt) c j = .ok (.fail f, k)) (hp : (p :: ps).Perm qs)
    (hfree : ∀ q ∈ p :: ps, ∀ e, FailsWith S c q e → e.DuplicateFree)
    (hpos : ∀ q ∈ p :: ps, ∀ q' ∈ p :: ps, ∀ e e', FailsWith S c q e → FailsWith S c q' e' →
      e.offset = e'.offset → e.position = e'.position) :
    ∃ g l, choice (qs.map attempt) c j = .ok (.fail g, l) ∧ g.cursor = c ∧
      f.error.Rearranges g.error := by
  obtain ⟨e, es, hfail, rfl⟩ := (choice_attempt_eq_fail p ps c f j k).1 h
  obtain ⟨fs, l, hfail', hperm⟩ := hfail.of_perm hp hr hj
  have hof := (failsWith_of_forall₂ (hfail.forall₂ hr hj).2).2
  have hes : ∀ x ∈ e :: es, x.DuplicateFree := by
    intro x hx
    obtain ⟨q, hq, hx⟩ := hof x hx
    exact hfree q hq x hx
  have hplaces : ∀ x ∈ e :: es, ∀ y ∈ e :: es, x.offset = y.offset → x.position = y.position := by
    intro x hx y hy
    obtain ⟨q, hq, hx⟩ := hof x hx
    obtain ⟨q', hq', hy⟩ := hof y hy
    exact hpos q hq q' hq' x y hx hy
  -- the first error of the other order is the one that the rest of them is merged into
  cases hfail' with
  | nil => cases hperm.length_eq
  | cons hq hfail' =>
    exact ⟨_, l, choice_attempt_of_failInTurn (.cons hq hfail'), rfl,
      ParseError.rearranges_foldl hperm hes hplaces⟩

end Choice

end Parser

/-- A choice of attempts backtracks fully and reports the furthest failure. It succeeds as the
first parser that does after those before it have failed. Where all fail it fails and has consumed
nothing, and its error stands at the greatest of their offsets and, unless one of them explains
itself there, expects what they expect there. If each of the parsers has one answer in whatever
state it is run, the choice has a value if any of them has, and another order of the parsers
rearranges what a failure lists and changes nothing else. -/
theorem choice_attempts_furthest {σ C τ α : Type} [Cursor C τ] [DecidableEq τ]
    (p : Parser (Run σ) C τ α) (ps : List (Parser (Run σ) C τ α)) (c : C) :
    (∀ v d j k, Parser.choice ((p :: ps).map Parser.attempt) c j = .ok (.ok v d, k) ↔
      ∃ before q after es l, p :: ps = before ++ q :: after ∧ Parser.FailInTurn c j before es l ∧
        q c l = .ok (.ok v d, k)) ∧
    (∀ j k, (∃ f, Parser.choice ((p :: ps).map Parser.attempt) c j = .ok (.fail f, k)) ↔
      ∃ es, Parser.FailInTurn c j (p :: ps) es k) ∧
    (∀ f j k, Parser.choice ((p :: ps).map Parser.attempt) c j = .ok (.fail f, k) →
      f.cursor = c ∧ f.consumedSince c = false ∧
      ∃ es, Parser.FailInTurn c j (p :: ps) es k ∧
        IsGreatest {n | ∃ e ∈ es, e.offset = n} f.error.offset ∧
        ((∀ e ∈ es, e.offset = f.error.offset → e.isExplained = false) →
          f.error.isExplained = false ∧
          ∀ s, s ∈ f.error.expected ↔ ∃ e ∈ es, e.offset = f.error.offset ∧ s ∈ e.expected)) ∧
    ∀ S : Set (Journal σ), (∀ q ∈ p :: ps, ∃ r, Parser.Answers S q c r) → ∀ j ∈ S,
      (∃ r, ∃ k ∈ S, Parser.choice ((p :: ps).map Parser.attempt) c j = .ok (r, k)) ∧
      ((∃ v d k, Parser.choice ((p :: ps).map Parser.attempt) c j = .ok (.ok v d, k)) ↔
        ∃ q ∈ p :: ps, ∃ v d, Parser.Answers S q c (.ok v d)) ∧
      ∀ f k qs, Parser.choice ((p :: ps).map Parser.attempt) c j = .ok (.fail f, k) →
        (p :: ps).Perm qs →
        (∀ q ∈ p :: ps, ∀ e, Parser.FailsWith S c q e → e.DuplicateFree) →
        (∀ q ∈ p :: ps, ∀ q' ∈ p :: ps, ∀ e e', Parser.FailsWith S c q e →
          Parser.FailsWith S c q' e' → e.offset = e'.offset → e.position = e'.position) →
        ∃ g l, Parser.choice (qs.map Parser.attempt) c j = .ok (.fail g, l) ∧ g.cursor = c ∧
          f.error.Rearranges g.error := by
  refine ⟨fun v d j k => Parser.choice_attempt_eq_ok p ps c d v j k, fun j k => ⟨?_, ?_⟩, ?_,
    fun S hr j hj => ?_⟩
  · rintro ⟨f, h⟩
    obtain ⟨e, es, hfail, -⟩ := (Parser.choice_attempt_eq_fail p ps c f j k).1 h
    exact ⟨e :: es, hfail⟩
  · rintro ⟨es, h⟩
    cases h with
    | cons hp h => exact ⟨_, Parser.choice_attempt_of_failInTurn (.cons hp h)⟩
  · intro f j k h
    obtain ⟨e, es, hfail, rfl⟩ := (Parser.choice_attempt_eq_fail p ps c f j k).1 h
    have hjoined := ParseError.joined_foldl e es
    exact ⟨rfl, Failure.consumedSince_cursor _, e :: es, hfail, hjoined.isGreatest,
      hjoined.expected_iff⟩
  · obtain ⟨hanswers, hsucceeds⟩ := Parser.choice_attempt_of_answers hr hj
    exact ⟨hanswers, hsucceeds, fun f k qs h hp => Parser.choice_attempt_of_perm hr hj h hp⟩

namespace Grammar

def otherPair : Parser (Run Unit) (TokenCursor Char) Char Value :=
  run noRules 4 (keepRight (charOf (.only 'a')) (charOf (.only 'c')))

end Grammar

namespace Parser

open Grammar (letterPair otherPair)

/-- Behind the `a` of `ab` one pair wanted a `c` and the other a `z`. Which is named first depends
on the order of the pairs. -/
theorem choice_attempts_furthest_ab : ∃ f g k l,
    choice ([otherPair, letterPair].map attempt) (TokenCursor.ofText "ab" 4) ⟨(), [], []⟩ =
        .ok (.fail f, k) ∧
      choice ([letterPair, otherPair].map attempt) (TokenCursor.ofText "ab" 4) ⟨(), [], []⟩ =
        .ok (.fail g, l) ∧
      f.error.expected = [.label "'c'", .label "'z'"] ∧ f.error.Rearranges g.error := by
  let wanted (label : String) : ParseError Char := .found ⟨1, 2, 1⟩ (.token 'b') (.label label)
  have hother : Answers Set.univ otherPair (TokenCursor.ofText "ab" 4)
      (.fail ⟨wanted "'c'", (TokenCursor.ofText "ab" 4).forward 1⟩) :=
    fun j _ => ⟨j, trivial, rfl⟩
  have hletters : Answers Set.univ letterPair (TokenCursor.ofText "ab" 4)
      (.fail ⟨wanted "'z'", (TokenCursor.ofText "ab" 4).forward 1⟩) :=
    fun j _ => ⟨j, trivial, rfl⟩
  have hr : ∀ q ∈ [otherPair, letterPair],
      ∃ r, Answers Set.univ q (TokenCursor.ofText "ab" 4) r := by
    simp only [List.forall_mem_cons]
    exact ⟨⟨_, hother⟩, ⟨_, hletters⟩, List.forall_mem_nil _⟩
  have herror : ∀ q ∈ [otherPair, letterPair], ∀ e,
      FailsWith Set.univ (TokenCursor.ofText "ab" 4) q e → ∃ label, e = wanted label := by
    have hunique := rightUnique_failsWith (σ := Unit) (C := TokenCursor Char) (τ := Char)
      (α := Value) (c := TokenCursor.ofText "ab" 4) (S := Set.univ) (j := ⟨(), [], []⟩) trivial
    simp only [List.forall_mem_cons]
    refine ⟨fun e he => ⟨"'c'", ?_⟩, fun e he => ⟨"'z'", ?_⟩, List.forall_mem_nil _⟩
    · exact hunique he ⟨_, hother, rfl⟩
    · exact hunique he ⟨_, hletters, rfl⟩
  have hfails : ∃ f k, choice ([otherPair, letterPair].map attempt) (TokenCursor.ofText "ab" 4)
      ⟨(), [], []⟩ = .ok (.fail f, k) ∧ f.error.expected = [.label "'c'", .label "'z'"] :=
    ⟨_, _, rfl, rfl⟩
  obtain ⟨f, k, hf, hexpected⟩ := hfails
  have hfree : ∀ q ∈ [otherPair, letterPair], ∀ e,
      FailsWith Set.univ (TokenCursor.ofText "ab" 4) q e → e.DuplicateFree := by
    intro q hq e he
    obtain ⟨label, rfl⟩ := herror q hq e he
    exact ⟨List.nodup_singleton _, List.nodup_singleton _, List.nodup_nil⟩
  obtain ⟨-, -, -, hall⟩ :=
    choice_attempts_furthest otherPair [letterPair] (TokenCursor.ofText "ab" 4)
  obtain ⟨g, l, hg, -, hrearranged⟩ := (hall Set.univ hr ⟨(), [], []⟩ trivial).2.2 f k
    [letterPair, otherPair] hf (.swap ..) hfree fun q hq q' hq' e e' he he' _ => by
      obtain ⟨label, rfl⟩ := herror q hq e he
      obtain ⟨label', rfl⟩ := herror q' hq' e' he'
      rfl
  exact ⟨f, g, k, l, hf, hg, hexpected, hrearranged⟩

end Parser

end Descent
