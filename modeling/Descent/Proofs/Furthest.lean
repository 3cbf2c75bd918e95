import Descent.Error.Basic
import Mathlib.Data.Bool.Basic
import Mathlib.Data.List.Nodup
import Mathlib.Data.Prod.Lex
import Mathlib.Order.MinMax

/-! The furthest error wins. The rank of an error is how far into the input it stands and, at one
offset, whether it is explained. Joining two errors keeps the one of greater rank and unites errors
of one rank. That is associative and idempotent, and what a list of errors is joined to can be read
off those of greatest rank. -/
namespace Descent.ParseError

section Union

variable {ι : Type} [DecidableEq ι] {a b c : List ι}

theorem union_eq_left (h : ∀ i ∈ b, i ∈ a) : union a b = a := by
  induction b with
  | nil => rfl
  | cons i b ih =>
    rw [List.forall_mem_cons] at h
    rw [union, if_pos h.1, ih h.2]

theorem union_append (a b c : List ι) : union a (b ++ c) = union (union a b) c := by
  induction b generalizing a with
  | nil => rfl
  | cons i b ih =>
    rw [List.cons_append, union, union, ih]

/-- What is new comes in the same order, however the lists are grouped. -/
theorem union_assoc (a b c : List ι) : union (union a b) c = union a (union b c) := by
  induction c generalizing b with
  | nil => rfl
  | cons i c ih =>
    rw [union, union, ← ih]
    congr 1
    by_cases hb : i ∈ b
    · rw [if_pos hb, if_pos (mem_union.2 (.inr hb))]
    · rw [if_neg hb, union_append]
      rfl

end Union

variable {τ : Type}

def rank (e : ParseError τ) : ℕ ×ₗ Bool := toLex (e.offset, e.isExplained)

theorem rank_eq_iff {a b : ParseError τ} :
    a.rank = b.rank ↔ a.offset = b.offset ∧ a.isExplained = b.isExplained := by
  rw [rank, rank, toLex_inj, Prod.mk.injEq]

theorem rank_lt_iff {a b : ParseError τ} : a.rank < b.rank ↔
    a.offset < b.offset ∨ a.offset = b.offset ∧ a.isExplained < b.isExplained :=
  Prod.Lex.toLex_lt_toLex

theorem rank_le_iff {a b : ParseError τ} : a.rank ≤ b.rank ↔
    a.offset < b.offset ∨ a.offset = b.offset ∧ a.isExplained ≤ b.isExplained :=
  Prod.Lex.toLex_le_toLex

section Winners

variable {e m m' x : ParseError τ} {es fs : List (ParseError τ)}

def winners (es : List (ParseError τ)) (m : ParseError τ) : List (ParseError τ) :=
  es.filter fun x => x.offset = m.offset ∧ x.isExplained = m.isExplained

theorem mem_winners : x ∈ winners es m ↔ x ∈ es ∧ x.rank = m.rank := by
  rw [winners, List.mem_filter, decide_eq_true_iff, rank_eq_iff]

theorem winners_of_rank (h : m.rank = m'.rank) : winners es m = winners es m' := by
  obtain ⟨hoffset, hkind⟩ := rank_eq_iff.1 h
  rw [winners, winners, hoffset, hkind]

theorem winners_append (es fs : List (ParseError τ)) (m : ParseError τ) :
    winners (es ++ fs) m = winners es m ++ winners fs m := List.filter_append ..

theorem winners_singleton (h : x.rank = m.rank) : winners [x] m = [x] := by
  rw [winners, List.filter_singleton, decide_eq_true (rank_eq_iff.1 h), cond_true]

theorem winners_eq_nil (h : ∀ x ∈ es, x.rank ≠ m.rank) : winners es m = [] :=
  List.eq_nil_iff_forall_not_mem.2 fun x hx => h x (mem_winners.1 hx).1 (mem_winners.1 hx).2

/-- What a list of errors is joined to. No error has a greater rank, the first of that rank gives
the position, and those of that rank give what is listed. -/
structure Joined (es : List (ParseError τ)) (m : ParseError τ) : Prop where
  le : ∀ x ∈ es, x.rank ≤ m.rank
  position : (winners es m).head?.map position = some m.position
  unexpected : ∀ s, s ∈ m.unexpected ↔ ∃ x ∈ winners es m, s ∈ x.unexpected
  expected : ∀ s, s ∈ m.expected ↔ ∃ x ∈ winners es m, s ∈ x.expected
  notes : ∀ n, n ∈ m.notes ↔ ∃ x ∈ winners es m, n ∈ x.notes

theorem joined_singleton (e : ParseError τ) : Joined [e] e := by
  have hwinners : winners [e] e = [e] := winners_singleton rfl
  constructor <;> simp [hwinners]

/-- The greatest rank is that of one of the errors. -/
theorem Joined.exists_winner (h : Joined es m) : ∃ x ∈ winners es m, x.position = m.position := by
  obtain ⟨x, hx, hposition⟩ := Option.map_eq_some_iff.1 h.position
  exact ⟨x, List.mem_of_head? hx, hposition⟩

theorem Joined.rank_eq (h : Joined es m) (h' : Joined fs m') (hp : es.Perm fs) :
    m.rank = m'.rank := by
  obtain ⟨x, hx, -⟩ := h.exists_winner
  obtain ⟨y, hy, -⟩ := h'.exists_winner
  obtain ⟨hxes, hxm⟩ := mem_winners.1 hx
  obtain ⟨hyfs, hym⟩ := mem_winners.1 hy
  apply le_antisymm
  · rw [← hxm]
    exact h'.le x (hp.mem_iff.1 hxes)
  · rw [← hym]
    exact h.le y (hp.mem_iff.2 hyfs)

end Winners

section Rearranges

variable {e f : ParseError τ}

/-- The same error, but for the order in which things are listed. -/
def Rearranges : ParseError τ → ParseError τ → Prop
  | mismatch p u x, mismatch q v y => p = q ∧ u.Perm v ∧ x.Perm y
  | explained p n, explained q n' => p = q ∧ n.Perm n'
  | _, _ => False

theorem rearranges_iff : e.Rearranges f ↔ e.isExplained = f.isExplained ∧
    e.position = f.position ∧ e.unexpected.Perm f.unexpected ∧ e.expected.Perm f.expected ∧
      e.notes.Perm f.notes := by
  cases e <;> cases f <;>
    simp [Rearranges, isExplained, ParseError.position, ParseError.unexpected,
      ParseError.expected, ParseError.notes]

end Rearranges

variable [DecidableEq τ]

/-- An error with what another one of its kind lists besides. -/
def unite : ParseError τ → ParseError τ → ParseError τ
  | mismatch p unexpected expected, e =>
    mismatch p (union unexpected e.unexpected) (union expected e.expected)
  | explained p notes, e => explained p (union notes e.notes)

section Unite

variable {a b c : ParseError τ}

@[simp] theorem position_unite (a b : ParseError τ) : (a.unite b).position = a.position := by
  cases a <;> rfl

@[simp] theorem rank_unite (a b : ParseError τ) : (a.unite b).rank = a.rank := by
  cases a <;> rfl

theorem unite_self (a : ParseError τ) : a.unite a = a := by
  cases a with
  | mismatch p unexpected expected =>
    exact congrArg₂ (mismatch p) (union_eq_left fun _ h => h) (union_eq_left fun _ h => h)
  | explained p notes => exact congrArg (explained p) (union_eq_left fun _ h => h)

/-- Where the first two are of one kind, errors can be united in either order. -/
theorem unite_assoc (h : a.isExplained = b.isExplained) (c : ParseError τ) :
    (a.unite b).unite c = a.unite (b.unite c) := by
  cases a with
  | mismatch p u x =>
    cases b with
    | mismatch q v y => exact congrArg₂ (mismatch p) (union_assoc _ _ _) (union_assoc _ _ _)
    | explained => cases h
  | explained p n =>
    cases b with
    | mismatch => cases h
    | explained q n' => exact congrArg (explained p) (union_assoc _ _ _)

/-- What is listed by errors of one kind that are united. -/
theorem mem_unite (h : a.isExplained = b.isExplained) :
    (∀ s, s ∈ (a.unite b).unexpected ↔ s ∈ a.unexpected ∨ s ∈ b.unexpected) ∧
      (∀ s, s ∈ (a.unite b).expected ↔ s ∈ a.expected ∨ s ∈ b.expected) ∧
      ∀ n, n ∈ (a.unite b).notes ↔ n ∈ a.notes ∨ n ∈ b.notes := by
  cases a with
  | mismatch p u x =>
    cases b with
    | mismatch q v y =>
      exact ⟨fun _ => mem_union, fun _ => mem_union, fun _ => by simp [unite, notes]⟩
    | explained => cases h
  | explained p n =>
    cases b with
    | mismatch => cases h
    | explained q n' =>
      exact ⟨fun _ => by simp [unite, unexpected], fun _ => by simp [unite, expected],
        fun _ => mem_union⟩

end Unite

section Merge

variable {a b c : ParseError τ}

theorem merge_of_lt (h : a.rank < b.rank) : a.merge b = b := by
  rcases rank_lt_iff.1 h with h | ⟨hoffset, hkind⟩
  · unfold merge
    rw [if_neg (Nat.lt_asymm h), if_pos h]
  · obtain ⟨ha, hb⟩ := Bool.lt_iff.1 hkind
    unfold merge
    rw [if_neg (Nat.not_lt.2 hoffset.le), if_neg (Nat.not_lt.2 hoffset.ge)]
    cases a with
    | mismatch =>
      cases b with
      | mismatch => cases hb
      | explained => rfl
    | explained => cases ha

theorem merge_of_gt (h : b.rank < a.rank) : a.merge b = a := by
  rcases rank_lt_iff.1 h with h | ⟨hoffset, hkind⟩
  · unfold merge
    rw [if_pos h]
  · obtain ⟨hb, ha⟩ := Bool.lt_iff.1 hkind
    unfold merge
    rw [if_neg (Nat.not_lt.2 hoffset.ge), if_neg (Nat.not_lt.2 hoffset.le)]
    cases a with
    | mismatch => cases ha
    | explained =>
      cases b with
      | mismatch => rfl
      | explained => cases hb

theorem merge_of_eq (h : a.rank = b.rank) : a.merge b = a.unite b := by
  obtain ⟨hoffset, hkind⟩ := rank_eq_iff.1 h
  unfold merge
  rw [if_neg (Nat.not_lt.2 hoffset.ge), if_neg (Nat.not_lt.2 hoffset.le)]
  cases a with
  | mismatch =>
    cases b with
    | mismatch => rfl
    | explained => cases hkind
  | explained =>
    cases b with
    | mismatch => cases hkind
    | explained => rfl

theorem rank_merge (a b : ParseError τ) : (a.merge b).rank = max a.rank b.rank := by
  rcases lt_trichotomy a.rank b.rank with h | h | h
  · rw [merge_of_lt h, max_eq_right h.le]
  · rw [merge_of_eq h, rank_unite, max_eq_left h.ge]
  · rw [merge_of_gt h, max_eq_left h.le]

theorem merge_idem (a : ParseError τ) : a.merge a = a := by
  rw [merge_of_eq rfl, unite_self]

theorem merge_assoc (a b c : ParseError τ) : (a.merge b).merge c = a.merge (b.merge c) := by
  rcases lt_trichotomy a.rank b.rank with hab | hab | hab
  · -- the first error is lost either way
    have hbc : a.rank < (b.merge c).rank := by
      rw [rank_merge]
      exact lt_max_of_lt_left hab
    rw [merge_of_lt hab, merge_of_lt hbc]
  · rw [merge_of_eq hab]
    rcases lt_trichotomy b.rank c.rank with hbc | hbc | hbc
    · have hac : a.rank < c.rank := hab.trans_lt hbc
      rw [merge_of_lt (a := a.unite b) (by rwa [rank_unite]), merge_of_lt hbc, merge_of_lt hac]
    · rw [merge_of_eq (a := a.unite b) (by rw [rank_unite, hab, hbc]), merge_of_eq hbc,
        merge_of_eq (by rw [rank_unite, hab]), unite_assoc (rank_eq_iff.1 hab).2]
    · rw [merge_of_gt (a := a.unite b) (by rwa [rank_unite, hab]), merge_of_gt hbc,
        merge_of_eq hab]
  · rw [merge_of_gt hab]
    rcases lt_or_ge b.rank c.rank with hbc | hbc
    · rw [merge_of_lt hbc]
    · -- the first error wins over both of the others
      have hmerged : (b.merge c).rank < a.rank := by
        rw [rank_merge]
        exact max_lt hab (hbc.trans_lt hab)
      rw [merge_of_gt (hbc.trans_lt hab), merge_of_gt hmerged]

/-- Nothing is listed twice. -/
structure DuplicateFree (e : ParseError τ) : Prop where
  unexpected : e.unexpected.Nodup
  expected : e.expected.Nodup
  notes : e.notes.Nodup

theorem DuplicateFree.merge (ha : a.DuplicateFree) (hb : b.DuplicateFree) :
    (a.merge b).DuplicateFree := by
  rcases lt_trichotomy a.rank b.rank with h | h | h
  · rwa [merge_of_lt h]
  · rw [merge_of_eq h]
    cases a with
    | mismatch => exact ⟨nodup_union ha.unexpected, nodup_union ha.expected, List.nodup_nil⟩
    | explained => exact ⟨List.nodup_nil, List.nodup_nil, nodup_union ha.notes⟩
  · rwa [merge_of_gt h]

end Merge

section Fold

variable {e f m x : ParseError τ} {es fs : List (ParseError τ)}

/-- One error more. -/
theorem Joined.merge (h : Joined es m) (x : ParseError τ) : Joined (es ++ [x]) (m.merge x) := by
  have hle : ∀ y ∈ es ++ [x], y.rank ≤ (m.merge x).rank := by
    rw [List.forall_mem_append, List.forall_mem_singleton, rank_merge]
    exact ⟨fun y hy => le_max_of_le_left (h.le y hy), le_max_right _ _⟩
  rcases lt_trichotomy m.rank x.rank with hlt | heq | hgt
  · -- the new error is the only winner
    have hwinners : winners (es ++ [x]) x = [x] := by
      rw [winners_append, winners_singleton rfl,
        winners_eq_nil fun y hy => ((h.le y hy).trans_lt hlt).ne, List.nil_append]
    rw [merge_of_lt hlt] at hle ⊢
    refine ⟨hle, ?_, ?_, ?_, ?_⟩ <;> simp [hwinners]
  · have hwinners : winners (es ++ [x]) (m.unite x) = winners es m ++ [x] := by
      rw [winners_of_rank (rank_unite m x), winners_append, winners_singleton heq.symm]
    obtain ⟨hunexpected, hexpected, hnotes⟩ := mem_unite (rank_eq_iff.1 heq).2
    rw [merge_of_eq heq] at hle ⊢
    refine ⟨hle, ?_, fun s => ?_, fun s => ?_, fun n => ?_⟩
    · obtain ⟨first, hfirst, hposition⟩ := Option.map_eq_some_iff.1 h.position
      rw [hwinners, List.head?_append, hfirst, position_unite, ← hposition]
      rfl
    · simp only [hunexpected, h.unexpected, hwinners, List.mem_append, List.mem_singleton,
        or_and_right, exists_or, exists_eq_left]
    · simp only [hexpected, h.expected, hwinners, List.mem_append, List.mem_singleton,
        or_and_right, exists_or, exists_eq_left]
    · simp only [hnotes, h.notes, hwinners, List.mem_append, List.mem_singleton,
        or_and_right, exists_or, exists_eq_left]
  · have hnil : winners [x] m = [] := winners_eq_nil (by simpa using hgt.ne)
    have hwinners : winners (es ++ [x]) m = winners es m := by
      rw [winners_append, hnil, List.append_nil]
    rw [merge_of_gt hgt] at hle ⊢
    exact ⟨hle, hwinners ▸ h.position, hwinners ▸ h.unexpected, hwinners ▸ h.expected,
      hwinners ▸ h.notes⟩

theorem Joined.foldl (h : Joined es m) (fs : List (ParseError τ)) :
    Joined (es ++ fs) (fs.foldl ParseError.merge m) := by
  induction fs generalizing es m with
  | nil => rwa [List.append_nil]
  | cons x fs ih => simpa using ih (h.merge x)

theorem joined_foldl (e : ParseError τ) (es : List (ParseError τ)) :
    Joined (e :: es) (es.foldl ParseError.merge e) := (joined_singleton e).foldl es

theorem duplicateFree_foldl (h : ∀ x ∈ e :: es, x.DuplicateFree) :
    (es.foldl ParseError.merge e).DuplicateFree := by
  induction es generalizing e with
  | nil => exact h e (List.mem_singleton_self e)
  | cons x es ih =>
    simp only [List.forall_mem_cons] at h
    exact ih (List.forall_mem_cons.2 ⟨h.1.merge h.2.1, h.2.2⟩)

/-- Lists that are joined in another order give the same error, rearranged. -/
theorem rearranges_foldl (hp : (e :: es).Perm (f :: fs)) (hd : ∀ x ∈ e :: es, x.DuplicateFree)
    (hpos : ∀ x ∈ e :: es, ∀ y ∈ e :: es, x.offset = y.offset → x.position = y.position) :
    (es.foldl ParseError.merge e).Rearranges (fs.foldl ParseError.merge f) := by
  have h := joined_foldl e es
  have h' := joined_foldl f fs
  have hfree := duplicateFree_foldl hd
  have hfree' := duplicateFree_foldl fun x hx => hd x (hp.mem_iff.2 hx)
  generalize es.foldl ParseError.merge e = m at h hfree ⊢
  generalize fs.foldl ParseError.merge f = m' at h' hfree' ⊢
  have hrank : m.rank = m'.rank := h.rank_eq h' hp
  have hwinners (x : ParseError τ) : x ∈ winners (e :: es) m ↔ x ∈ winners (f :: fs) m' := by
    rw [mem_winners, mem_winners, hp.mem_iff, hrank]
  have hposition : m.position = m'.position := by
    obtain ⟨x, hx, hxm⟩ := h.exists_winner
    obtain ⟨y, hy, hym⟩ := h'.exists_winner
    obtain ⟨hxes, hxrank⟩ := mem_winners.1 hx
    obtain ⟨hyes, hyrank⟩ := mem_winners.1 ((hwinners y).2 hy)
    rw [← hxm, ← hym]
    exact hpos x hxes y hyes (rank_eq_iff.1 (hxrank.trans hyrank.symm)).1
  rw [rearranges_iff]
  refine ⟨(rank_eq_iff.1 hrank).2, hposition, ?_, ?_, ?_⟩
  · rw [List.perm_ext_iff_of_nodup hfree.unexpected hfree'.unexpected]
    simp only [h.unexpected, h'.unexpected, hwinners, implies_true]
  · rw [List.perm_ext_iff_of_nodup hfree.expected hfree'.expected]
    simp only [h.expected, h'.expected, hwinners, implies_true]
  · rw [List.perm_ext_iff_of_nodup hfree.notes hfree'.notes]
    simp only [h.notes, h'.notes, hwinners, implies_true]

end Fold

/-- Joining errors is associative and idempotent, and the furthest error wins. What a list of
errors is joined to stands at the greatest offset among them and is explained if one of those at
that offset is. Its position is that of the first winner, and it lists exactly what the winners
list. For errors that list nothing twice and whose offsets determine their positions, another order
of the list only changes the order of what is listed. -/
theorem furthest_wins :
    (∀ a b c : ParseError τ, (a.merge b).merge c = a.merge (b.merge c)) ∧
    (∀ a : ParseError τ, a.merge a = a) ∧
    (∀ (e : ParseError τ) (es : List (ParseError τ)) (m : ParseError τ),
      es.foldl merge e = m →
      ((∀ x ∈ e :: es, x.offset ≤ m.offset) ∧ ∃ x ∈ e :: es, x.offset = m.offset) ∧
      (m.isExplained = true ↔ ∃ x ∈ e :: es, x.offset = m.offset ∧ x.isExplained = true) ∧
      (winners (e :: es) m).head?.map position = some m.position ∧
      (∀ s, s ∈ m.unexpected ↔ ∃ x ∈ winners (e :: es) m, s ∈ x.unexpected) ∧
      (∀ s, s ∈ m.expected ↔ ∃ x ∈ winners (e :: es) m, s ∈ x.expected) ∧
      ∀ n, n ∈ m.notes ↔ ∃ x ∈ winners (e :: es) m, n ∈ x.notes) ∧
    ∀ (e f : ParseError τ) (es fs : List (ParseError τ)), (e :: es).Perm (f :: fs) →
      (∀ x ∈ e :: es, x.DuplicateFree) →
      (∀ x ∈ e :: es, ∀ y ∈ e :: es, x.offset = y.offset → x.position = y.position) →
      (es.foldl merge e).Rearranges (fs.foldl merge f) := by
  refine ⟨merge_assoc, merge_idem, ?_, fun e f es fs => rearranges_foldl⟩
  rintro e es _ rfl
  have h := joined_foldl e es
  generalize es.foldl merge e = m at h ⊢
  obtain ⟨first, hfirst, -⟩ := h.exists_winner
  obtain ⟨hmem, hrank⟩ := mem_winners.1 hfirst
  obtain ⟨hoffset, hkind⟩ := rank_eq_iff.1 hrank
  refine ⟨⟨fun x hx => ?_, first, hmem, hoffset⟩, ⟨fun hm => ?_, ?_⟩, h.position, h.unexpected,
    h.expected, h.notes⟩
  · rcases rank_le_iff.1 (h.le x hx) with hlt | ⟨heq, -⟩
    · exact hlt.le
    · exact heq.le
  · exact ⟨first, hmem, hoffset, hkind.trans hm⟩
  · rintro ⟨x, hx, hxoffset, hxkind⟩
    rcases rank_le_iff.1 (h.le x hx) with hlt | ⟨-, hle⟩
    · exact absurd hxoffset hlt.ne
    · rw [hxkind] at hle
      exact Bool.eq_true_of_true_le hle

def questionMark (label : String) : ParseError Char :=
  found ⟨1, 3, 2⟩ (.token '?') (.label label)

/-- Where a digit or a letter would have fitted, either may be named first. -/
theorem furthest_wins_digitOrLetter :
    ((questionMark "digit").merge (questionMark "letter")).Rearranges
      ((questionMark "letter").merge (questionMark "digit")) := by
  obtain ⟨-, -, -, hrearranged⟩ := furthest_wins (τ := Char)
  have hfree (label : String) : (questionMark label).DuplicateFree :=
    ⟨List.nodup_singleton _, List.nodup_singleton _, List.nodup_nil⟩
  refine hrearranged (questionMark "digit") (questionMark "letter") [_] [_] (.swap ..) ?_ ?_
  · simp [hfree]
  · simp [questionMark, found, position]

end Descent.ParseError
