import Descent.Layout.Items
import Descent.Proofs.Layout.Lines

/-! Runs of items collect all the items there are. A round of a run reads one item on a token whose
level fits, or it is the last. The run stops at a token that is no item of it, goes back in front of
the blanks that led there, and leaves them to what follows. Whether an item has consumed something
is asked of the token it stands on, and not of the blanks in front of it. -/
namespace Descent.Parser

variable {σ C τ α γ : Type} [Cursor C τ]

/-- Behind `c` there is no further item, and `f` says why: blanks lead to the end of the input, to a
token at another level, or to one where the item fails and has consumed nothing. At the end of the
input the item is run for what it has to say, and it may even succeed there. -/
inductive Stops (blanks : Parser (Run σ) C τ γ) (item : Parser (Run σ) C τ α)
    (relation : Relation) (reference : Level) (c : C) (j : Journal σ) :
    Failure C τ → Journal σ → Prop where
  | atEnd {u : γ} {line : C} {f : Failure C τ} {k m : Journal σ}
      (hb : blanks c j = .ok (.ok u line, k)) (hend : Cursor.isEnd line = true)
      (hi : item line k = .ok (.fail f, m)) : Stops blanks item relation reference c j f m
  | emptyAtEnd {u : γ} {line d : C} {v : α} {k m : Journal σ}
      (hb : blanks c j = .ok (.ok u line, k)) (hend : Cursor.isEnd line = true)
      (hi : item line k = .ok (.ok v d, m)) :
    Stops blanks item relation reference c j (indentationFailure line relation reference) m
  | misplaced {u : γ} {line : C} {m : Journal σ} (hb : blanks c j = .ok (.ok u line, m))
      (hend : Cursor.isEnd line = false)
      (hfits : relation.satisfies reference (Cursor.level line) = false) :
    Stops blanks item relation reference c j (indentationFailure line relation reference) m
  | refused {u : γ} {line : C} {f : Failure C τ} {k m : Journal σ}
      (hb : blanks c j = .ok (.ok u line, k)) (hend : Cursor.isEnd line = false)
      (hfits : relation.satisfies reference (Cursor.level line) = true)
      (hi : item line k = .ok (.fail f, m)) (hf : f.consumedSince line = false) :
    Stops blanks item relation reference c j f m

/-- Behind `c` the run fails with `f`: the blanks fail, or an item on a token at a level that fits,
and that has consumed something. -/
inductive Breaks (blanks : Parser (Run σ) C τ γ) (item : Parser (Run σ) C τ α)
    (relation : Relation) (reference : Level) (c : C) (j : Journal σ) :
    Failure C τ → Journal σ → Prop where
  | blanks {f : Failure C τ} {m : Journal σ} (hb : blanks c j = .ok (.fail f, m)) :
    Breaks blanks item relation reference c j f m
  | item {u : γ} {line : C} {f : Failure C τ} {k m : Journal σ}
      (hb : blanks c j = .ok (.ok u line, k)) (hend : Cursor.isEnd line = false)
      (hfits : relation.satisfies reference (Cursor.level line) = true)
      (hi : item line k = .ok (.fail f, m)) (hf : f.consumedSince line = true) :
    Breaks blanks item relation reference c j f m

/-- How the last round of a run of items ends it. -/
inductive LastItem (blanks : Parser (Run σ) C τ γ) (item : Parser (Run σ) C τ α)
    (relation : Relation) (reference : Level) (atLeastOne : Bool) (c : C) (j : Journal σ) :
    Reply C τ (List α) → Journal σ → Prop where
  | stops {f : Failure C τ} {m : Journal σ} (h : Stops blanks item relation reference c j f m) :
    LastItem blanks item relation reference atLeastOne c j (endItems atLeastOne f c) m
  | breaks {f : Failure C τ} {m : Journal σ} (h : Breaks blanks item relation reference c j f m) :
    LastItem blanks item relation reference atLeastOne c j (.fail f) m

variable {blanks : Parser (Run σ) C τ γ} {item : Parser (Run σ) C τ α} {relation : Relation}
  {reference : Level} {atLeastOne : Bool} {c d e line : C} {u : γ} {v : α} {vs : List α}
  {f : Failure C τ} {n : Nat} {j k l m : Journal σ}

section Rounds

theorem itemsAt_of_end (hb : blanks c j = .ok (.ok u line, k))
    (hend : Cursor.isEnd line = true) :
    itemsAt reference relation blanks item atLeastOne (n + 1) c j =
      (do
        match ← item line with
        | .fail f => return endItems atLeastOne f c
        | .ok _ _ =>
          return endItems atLeastOne (indentationFailure line relation reference) c : Run σ _)
        k := by
  rw [itemsAt, Run.bind_of_ok hb]
  exact congrFun (if_pos hend) k

theorem itemsAt_of_misplaced (hb : blanks c j = .ok (.ok u line, k))
    (hend : Cursor.isEnd line = false)
    (hfits : relation.satisfies reference (Cursor.level line) = false) :
    itemsAt reference relation blanks item atLeastOne (n + 1) c j =
      .ok (endItems atLeastOne (indentationFailure line relation reference) c, k) := by
  rw [itemsAt, Run.bind_of_ok hb]
  simp only [hend, hfits, Bool.false_eq_true, if_false]
  rfl

theorem itemsAt_of_fits (hb : blanks c j = .ok (.ok u line, k))
    (hend : Cursor.isEnd line = false)
    (hfits : relation.satisfies reference (Cursor.level line) = true) :
    itemsAt reference relation blanks item atLeastOne (n + 1) c j =
      (do
        match ← item line with
        | .ok v next =>
          return (← itemsAt reference relation blanks item false n next).map (v :: ·)
        | .fail f =>
          if f.consumedSince line then return .fail f else return endItems atLeastOne f c :
        Run σ _) k := by
  rw [itemsAt, Run.bind_of_ok hb]
  refine (congrFun (if_neg (ne_true_of_eq_false hend)) k).trans ?_
  exact congrFun (if_pos hfits) k

theorem Stops.itemsAt_eq (h : Stops blanks item relation reference c j f m) (n : Nat) :
    itemsAt reference relation blanks item atLeastOne (n + 1) c j =
      .ok (endItems atLeastOne f c, m) := by
  cases h with
  | atEnd hb hend hi =>
    rw [itemsAt_of_end hb hend, Run.bind_of_ok hi]
    rfl
  | emptyAtEnd hb hend hi =>
    rw [itemsAt_of_end hb hend, Run.bind_of_ok hi]
    rfl
  | misplaced hb hend hfits => exact itemsAt_of_misplaced hb hend hfits
  | refused hb hend hfits hi hf =>
    rw [itemsAt_of_fits hb hend hfits, Run.bind_of_ok hi]
    simp only [hf, Bool.false_eq_true, if_false]
    rfl

theorem Breaks.itemsAt_eq (h : Breaks blanks item relation reference c j f m) (n : Nat) :
    itemsAt reference relation blanks item atLeastOne (n + 1) c j = .ok (.fail f, m) := by
  cases h with
  | blanks hb =>
    rw [itemsAt, Run.bind_of_ok hb]
    rfl
  | item hb hend hfits hi hf =>
    rw [itemsAt_of_fits hb hend hfits, Run.bind_of_ok hi]
    simp only [hf, if_true]
    rfl

theorem LastItem.itemsAt_eq {r : Reply C τ (List α)}
    (h : LastItem blanks item relation reference atLeastOne c j r m) (n : Nat) :
    itemsAt reference relation blanks item atLeastOne (n + 1) c j = .ok (r, m) := by
  cases h with
  | stops h => exact h.itemsAt_eq n
  | breaks h => exact h.itemsAt_eq n

theorem OnLine.itemsAt_eq
    (h : OnLine blanks item (relation.satisfies reference · = true) c j v d l) (n : Nat) :
    itemsAt reference relation blanks item atLeastOne (n + 1) c j =
      (do return (← itemsAt reference relation blanks item false n d).map (v :: ·) :
        Run σ (Reply C τ (List α))) l := by
  obtain ⟨u, line, k, hb, hend, hfits, hi⟩ := h
  rw [itemsAt_of_fits hb hend hfits, Run.bind_of_ok hi]

theorem OnLine.itemsAt_ends_iff {r : Reply C τ (List α)}
    (h : OnLine blanks item (relation.satisfies reference · = true) c j v d l) :
    itemsAt reference relation blanks item atLeastOne (n + 1) c j = .ok (r, m) ↔
      ∃ s, itemsAt reference relation blanks item false n d l = .ok (s, m) ∧
        r = s.map (v :: ·) := by
  rw [h.itemsAt_eq, Run.bind_eq_ok]
  constructor
  · rintro ⟨s, k, hs, ⟨⟩⟩
    exact ⟨s, hs, rfl⟩
  · rintro ⟨s, hs, rfl⟩
    exact ⟨s, m, hs, rfl⟩

/-- A round that comes to an answer is the last, or reads an item. -/
theorem lastItem_or_onLine {r : Reply C τ (List α)}
    (h : itemsAt reference relation blanks item atLeastOne (n + 1) c j = .ok (r, m)) :
    (∃ s i, LastItem blanks item relation reference atLeastOne c j s i) ∨
      ∃ v d l, OnLine blanks item (relation.satisfies reference · = true) c j v d l := by
  have hrun := h
  rw [itemsAt, Run.bind_eq_ok] at hrun
  obtain ⟨⟨u, line⟩ | f, k, hb, -⟩ := hrun
  · cases hend : Cursor.isEnd line with
    | true =>
      rw [itemsAt_of_end hb hend] at h
      obtain ⟨⟨v, d⟩ | f, l, hi, -⟩ := Run.bind_eq_ok.1 h
      · exact .inl ⟨_, _, .stops (.emptyAtEnd hb hend hi)⟩
      · exact .inl ⟨_, _, .stops (.atEnd hb hend hi)⟩
    | false =>
      cases hfits : relation.satisfies reference (Cursor.level line) with
      | false => exact .inl ⟨_, _, .stops (.misplaced hb hend hfits)⟩
      | true =>
        rw [itemsAt_of_fits hb hend hfits] at h
        obtain ⟨⟨v, d⟩ | f, l, hi, -⟩ := Run.bind_eq_ok.1 h
        · exact .inr ⟨v, d, l, u, line, k, hb, hend, hfits, hi⟩
        · cases hf : f.consumedSince line with
          | false => exact .inl ⟨_, _, .stops (.refused hb hend hfits hi hf)⟩
          | true => exact .inl ⟨_, _, .breaks (.item hb hend hfits hi hf)⟩
  · exact .inl ⟨_, _, .breaks (.blanks hb)⟩

theorem itemsAt_succ_iff {r : Reply C τ (List α)} :
    itemsAt reference relation blanks item atLeastOne (n + 1) c j = .ok (r, m) ↔
      LastItem blanks item relation reference atLeastOne c j r m ∨
      ∃ v d l s, OnLine blanks item (relation.satisfies reference · = true) c j v d l ∧
        itemsAt reference relation blanks item false n d l = .ok (s, m) ∧
        r = s.map (v :: ·) := by
  constructor
  · intro h
    obtain ⟨s, i, hlast⟩ | ⟨v, d, l, hv⟩ := lastItem_or_onLine h
    · cases (hlast.itemsAt_eq n).symm.trans h
      exact .inl hlast
    · obtain ⟨s, hs, rfl⟩ := hv.itemsAt_ends_iff.1 h
      exact .inr ⟨v, d, l, s, hv, hs, rfl⟩
  · rintro (h | ⟨v, d, l, s, hv, hs, rfl⟩)
    · exact h.itemsAt_eq n
    · exact hv.itemsAt_ends_iff.2 ⟨s, hs, rfl⟩

/-- What a run of items comes to: some items on lines of their own, and then its last round. -/
theorem itemsAt_ends_iff {r : Reply C τ (List α)} :
    itemsAt reference relation blanks item false n c j = .ok (r, m) ↔
      ∃ vs e i s, vs.length < n ∧
        Lines blanks item (relation.satisfies reference · = true) c j vs e i ∧
        LastItem blanks item relation reference false e i s m ∧ r = s.map (vs ++ ·) := by
  simp only [lines_iff_rounds]
  exact loop_ends_iff (by rintro _ _ _ _ ⟨⟩) fun _ _ _ _ _ => itemsAt_succ_iff

theorem lastItem_ok_iff : LastItem blanks item relation reference false c j (.ok vs e) m ↔
    vs = [] ∧ e = c ∧ ∃ f, Stops blanks item relation reference c j f m := by
  constructor
  · rintro ⟨h⟩
    exact ⟨rfl, rfl, _, h⟩
  · rintro ⟨rfl, rfl, f, h⟩
    exact .stops h

theorem lastItem_fail_iff : LastItem blanks item relation reference false c j (.fail f) m ↔
    Breaks blanks item relation reference c j f m := by
  constructor
  · rintro (_ | h)
    exact h
  · exact .breaks

end Rounds

/-- A run that needs an item differs from one that does not in nothing but its failure where there
is no item. -/
theorem itemsAt_true_iff {r : Reply C τ (List α)} :
    itemsAt reference relation blanks item true n c j = .ok (r, m) ↔
      (itemsAt reference relation blanks item false n c j = .ok (r, m) ∧ ∀ d, r ≠ .ok [] d) ∨
      ∃ f, r = .fail f ∧ itemsAt reference relation blanks item false n c j = .ok (.ok [] c, m) ∧
        Stops blanks item relation reference c j f m := by
  cases n with
  | zero =>
    constructor
    · rintro ⟨⟩
    · rintro (⟨⟨⟩, _⟩ | ⟨_, _, ⟨⟩, _⟩)
  | succ n =>
    constructor
    · intro h
      obtain (hstops | hbreaks) | ⟨v, d, l, s, hv, hs, rfl⟩ := itemsAt_succ_iff.1 h
      · exact .inr ⟨_, rfl, hstops.itemsAt_eq n, hstops⟩
      · exact .inl ⟨hbreaks.itemsAt_eq n, nofun⟩
      · refine .inl ⟨itemsAt_succ_iff.2 (.inr ⟨v, d, l, s, hv, hs, rfl⟩), fun e he => ?_⟩
        obtain ⟨_, _, hcons⟩ := Reply.map_eq_ok.1 he
        exact List.cons_ne_nil _ _ hcons
    · rintro (⟨h, hsome⟩ | ⟨f, rfl, -, hstops⟩)
      · obtain (hstops | hbreaks) | hitem := itemsAt_succ_iff.1 h
        · exact absurd rfl (hsome c)
        · exact hbreaks.itemsAt_eq n
        · exact itemsAt_succ_iff.2 (.inr hitem)
      · exact hstops.itemsAt_eq n

/-- A run of items collects the maximal run of items at levels that fit. It has the values of items
that are read in turn, each behind blanks that lead to a token whose level stands to the reference
as asked, up to where there is no further one, and it ends in front of the blanks behind the last.
It fails where behind such items the blanks do, or an item that has consumed something since its
first token. A run that needs an item answers the same, but fails where there is none; `n` bounds
how often a run asks for a line. -/
theorem itemsAt_collects (reference : Level) (relation : Relation) (blanks : Parser (Run σ) C τ γ)
    (item : Parser (Run σ) C τ α) (n : Nat) (c : C) (j : Journal σ) :
    (∀ vs e m, itemsAt reference relation blanks item false n c j = .ok (.ok vs e, m) ↔
      vs.length < n ∧ ∃ i f,
        Lines blanks item (relation.satisfies reference · = true) c j vs e i ∧
        Stops blanks item relation reference e i f m) ∧
    (∀ f m, itemsAt reference relation blanks item false n c j = .ok (.fail f, m) ↔
      ∃ vs e i, vs.length < n ∧
        Lines blanks item (relation.satisfies reference · = true) c j vs e i ∧
        Breaks blanks item relation reference e i f m) ∧
    ∀ r m, itemsAt reference relation blanks item true n c j = .ok (r, m) ↔
      (itemsAt reference relation blanks item false n c j = .ok (r, m) ∧ ∀ d, r ≠ .ok [] d) ∨
      ∃ f, r = .fail f ∧ itemsAt reference relation blanks item false n c j = .ok (.ok [] c, m) ∧
        Stops blanks item relation reference c j f m := by
  refine ⟨fun vs e m => ?_, fun f m => ?_, fun r m => itemsAt_true_iff⟩
  · have hlast {d i us e} (h : LastItem blanks item relation reference false d i (.ok us e) m) :
        us = [] ∧ e = d := by
      obtain ⟨rfl, rfl, -⟩ := lastItem_ok_iff.1 h
      exact ⟨rfl, rfl⟩
    rw [itemsAt_ends_iff, ends_ok_iff hlast]
    simp only [lastItem_ok_iff, true_and, exists_and_left]
  · rw [itemsAt_ends_iff, ends_fail_iff]
    simp only [lastItem_fail_iff]

end Descent.Parser
