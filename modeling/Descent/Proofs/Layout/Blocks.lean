import Descent.Layout.Block
import Descent.Proofs.Layout.Lines

/-! Blocks are exactly the heads with aligned items. A round of a block reads one item or is the
last one, and by induction on the rounds a block reads items on lines of one level and then comes to
its end. The blanks in front of the line that ends a block are left to what follows it. -/
namespace Descent

variable {σ C τ α β γ : Type} [Cursor C τ]

namespace Parser

def Within (reference : Level) (line : C) : Prop :=
  Cursor.isEnd line = false ∧ reference.column < (Cursor.level line).column

def Outside (reference : Level) (line : C) : Prop :=
  Cursor.isEnd line = true ∨ (Cursor.level line).column ≤ reference.column

variable {reference : Level} {line c e : C}

theorem outside_iff : (Cursor.isEnd line || (Cursor.level line).column ≤ reference.column : Bool) =
    true ↔ Outside reference line := by
  simp [Outside]

theorem not_outside_iff : ¬Outside reference line ↔ Within reference line := by
  simp [Outside, Within]

variable {blanks : Parser (Run σ) C τ γ} {head : Parser (Run σ) C τ α}
  {item : Parser (Run σ) C τ β} {u : γ} {vs : List β} {aligned : Option Level}
  {atLeastOne : Bool} {n : Nat} {j k m : Journal σ}

section Rounds

/-- How the items of a block come to an end: with the blanks in front of a line, with a line outside
the block, or with one that is not aligned or whose item fails. -/
inductive LastLine (blanks : Parser (Run σ) C τ γ) (item : Parser (Run σ) C τ β)
    (reference : Level) (atLeastOne : Bool) (aligned : Option Level) (c : C) (j : Journal σ) :
    Reply C τ (List β) → Journal σ → Prop where
  | blanks {f : Failure C τ} {k : Journal σ} (hb : blanks c j = .ok (.fail f, k)) :
    LastLine blanks item reference atLeastOne aligned c j (.fail f) k
  | outside {u : γ} {line : C} {k : Journal σ} (hb : blanks c j = .ok (.ok u line, k))
      (hline : Outside reference line) (hnone : atLeastOne = false) :
    LastLine blanks item reference atLeastOne aligned c j (.ok [] c) k
  | missing {u : γ} {line : C} {f : Failure C τ} {k l : Journal σ}
      (hb : blanks c j = .ok (.ok u line, k)) (hline : Outside reference line)
      (hsome : atLeastOne = true) (hf : missingItem item reference line k = .ok (f, l)) :
    LastLine blanks item reference atLeastOne aligned c j (.fail f) l
  | misaligned {u : γ} {line : C} {L : Level} {k : Journal σ}
      (hb : blanks c j = .ok (.ok u line, k)) (hline : Within reference line)
      (hL : aligned = some L) (hne : Cursor.level line ≠ L) :
    LastLine blanks item reference atLeastOne aligned c j (.fail (indentationFailure line .eq L))
      { k with events := k.events ++
        [.misaligned (Cursor.position line).line L (Cursor.level line)] }
  | item {u : γ} {line : C} {f : Failure C τ} {k l : Journal σ}
      (hb : blanks c j = .ok (.ok u line, k)) (hline : Within reference line)
      (ha : Cursor.level line = aligned.getD (Cursor.level line))
      (hi : item line k = .ok (.fail f, l)) :
    LastLine blanks item reference atLeastOne aligned c j (.fail f) l

theorem blockItems_of_outside (hb : blanks c j = .ok (.ok u line, k))
    (hline : Outside reference line) :
    blockItems blanks item reference atLeastOne aligned (n + 1) c j =
      (if atLeastOne then do return .fail (← missingItem item reference line)
        else return .ok [] c : Run σ _) k := by
  rw [blockItems, Run.bind_of_ok hb]
  exact congrFun (if_pos (outside_iff.2 hline)) k

theorem blockItems_of_within (hb : blanks c j = .ok (.ok u line, k))
    (hline : Within reference line) :
    blockItems blanks item reference atLeastOne aligned (n + 1) c j =
      (if Cursor.level line = aligned.getD (Cursor.level line) then do
        match ← item line with
        | .fail f => return .fail f
        | .ok v next =>
          let level := aligned.getD (Cursor.level line)
          return (← blockItems blanks item reference false (some level) n next).map (v :: ·)
      else do
        let level := aligned.getD (Cursor.level line)
        MonadRun.report (.misaligned (Cursor.position line).line level (Cursor.level line))
        return .fail (indentationFailure line .eq level) : Run σ _) k := by
  rw [blockItems, Run.bind_of_ok hb]
  exact congrFun (if_neg (mt outside_iff.1 (not_outside_iff.2 hline))) k

/-- The last round of a block ends it. -/
theorem LastLine.blockItems_eq {r : Reply C τ (List β)}
    (h : LastLine blanks item reference atLeastOne aligned c j r m) (n : Nat) :
    blockItems blanks item reference atLeastOne aligned (n + 1) c j = .ok (r, m) := by
  cases h with
  | blanks hb =>
    rw [blockItems, Run.bind_of_ok hb]
    rfl
  | outside hb hline hnone =>
    rw [blockItems_of_outside hb hline, hnone]
    rfl
  | missing hb hline hsome hf =>
    rw [blockItems_of_outside hb hline, hsome, if_pos rfl, Run.bind_of_ok hf]
    rfl
  | misaligned hb hline hL hne =>
    rw [blockItems_of_within hb hline, hL, Option.getD_some, if_neg hne]
    rfl
  | item hb hline ha hi =>
    rw [blockItems_of_within hb hline, if_pos ha, Run.bind_of_ok hi]
    rfl

/-- A block that ends well ends in front of the blanks that lead outside. -/
theorem lastLine_ok_iff : LastLine blanks item reference atLeastOne aligned c j (.ok vs e) m ↔
    vs = [] ∧ e = c ∧ atLeastOne = false ∧
      ∃ u line, blanks c j = .ok (.ok u line, m) ∧ Outside reference line := by
  constructor
  · rintro (_ | ⟨hb, hline, hnone⟩)
    exact ⟨rfl, rfl, hnone, _, _, hb, hline⟩
  · rintro ⟨rfl, rfl, hnone, u, line, hb, hline⟩
    exact .outside hb hline hnone

/-- With a line outside the block the items end. -/
theorem lastLine_of_outside {r : Reply C τ (List β)} (hb : blanks c j = .ok (.ok u line, k))
    (hline : Outside reference line)
    (h : blockItems blanks item reference atLeastOne aligned (n + 1) c j = .ok (r, m)) :
    LastLine blanks item reference atLeastOne aligned c j r m := by
  rw [blockItems_of_outside hb hline] at h
  cases atLeastOne with
  | false =>
    cases h
    exact .outside hb hline rfl
  | true =>
    obtain ⟨f, l, hf, h⟩ := Run.bind_eq_ok.1 h
    cases h
    exact .missing hb hline rfl hf

/-- With a line inside the block they end, or go on behind an item on it. -/
theorem lastLine_or_item_of_within {r : Reply C τ (List β)}
    (hb : blanks c j = .ok (.ok u line, k)) (hline : Within reference line)
    (h : blockItems blanks item reference atLeastOne aligned (n + 1) c j = .ok (r, m)) :
    LastLine blanks item reference atLeastOne aligned c j r m ∨
      ∃ v d l s, Cursor.level line = aligned.getD (Cursor.level line) ∧
        item line k = .ok (.ok v d, l) ∧
        blockItems blanks item reference false (some (Cursor.level line)) n d l = .ok (s, m) ∧
        r = s.map (v :: ·) := by
  rw [blockItems_of_within hb hline] at h
  by_cases ha : Cursor.level line = aligned.getD (Cursor.level line)
  · rw [if_pos ha, Run.bind_eq_ok] at h
    obtain ⟨⟨v, d⟩ | f, l, hi, h⟩ := h
    · obtain ⟨s, i, hs, h⟩ := Run.bind_eq_ok.1 h
      cases h
      rw [← ha] at hs
      exact .inr ⟨v, d, l, s, ha, hi, hs, rfl⟩
    · cases h
      exact .inl (.item hb hline ha hi)
  · rw [if_neg ha] at h
    cases aligned with
    | none => exact absurd rfl ha
    | some L =>
      cases h
      exact .inl (.misaligned hb hline rfl ha)

/-- A round of a block is its last, or reads one item. -/
theorem blockItems_succ_iff {r : Reply C τ (List β)} :
    blockItems blanks item reference atLeastOne aligned (n + 1) c j = .ok (r, m) ↔
      LastLine blanks item reference atLeastOne aligned c j r m ∨
      ∃ u line k v d l s, blanks c j = .ok (.ok u line, k) ∧ Within reference line ∧
        Cursor.level line = aligned.getD (Cursor.level line) ∧ item line k = .ok (.ok v d, l) ∧
        blockItems blanks item reference false (some (Cursor.level line)) n d l = .ok (s, m) ∧
        r = s.map (v :: ·) := by
  constructor
  · intro h
    have hrun := h
    rw [blockItems, Run.bind_eq_ok] at hrun
    obtain ⟨⟨u, line⟩ | f, k, hb, hrun⟩ := hrun
    · by_cases hline : Outside reference line
      · exact .inl (lastLine_of_outside hb hline h)
      · have hwithin := not_outside_iff.1 hline
        refine (lastLine_or_item_of_within hb hwithin h).imp_right ?_
        rintro ⟨v, d, l, s, hitem⟩
        exact ⟨u, line, k, v, d, l, s, hb, hwithin, hitem⟩
    · cases hrun
      exact .inl (.blanks hb)
  · rintro (h | ⟨u, line, k, v, d, l, s, hb, hline, ha, hi, hs, rfl⟩)
    · exact h.blockItems_eq n
    · rw [blockItems_of_within hb hline, if_pos ha, Run.bind_of_ok hi]
      rw [ha] at hs
      exact Run.bind_of_ok hs

/-- What the rounds of a block come to: some aligned items, and then the end. -/
theorem blockItems_eq_ok_iff {r : Reply C τ (List β)}
    (ha : ∀ K ∈ aligned, reference.column < K.column) :
    blockItems blanks item reference atLeastOne aligned n c j = .ok (r, m) ↔
      ∃ L vs e i s, reference.column < L.column ∧ (∀ K ∈ aligned, K = L) ∧ vs.length < n ∧
        Lines blanks item (· = L) c j vs e i ∧
        LastLine blanks item reference (atLeastOne && vs.isEmpty)
          (if vs.isEmpty then aligned else some L) e i s m ∧
        r = s.map (vs ++ ·) := by
  -- on the rounds; the first item settles the level that the others are held to
  induction n generalizing atLeastOne aligned c j r with
  | zero =>
    constructor
    · rintro ⟨⟩
    · rintro ⟨_, _, _, _, _, _, _, hn, _⟩
      exact absurd hn (Nat.not_lt_zero _)
  | succ n ih =>
    rw [blockItems_succ_iff]
    constructor
    · rintro (h | ⟨u, line, k, v, d, l, s, hb, hline, hlevel, hi, hs, rfl⟩)
      · obtain ⟨L, hL, haligned⟩ :
            ∃ L : Level, reference.column < L.column ∧ ∀ K ∈ aligned, K = L := by
          cases aligned with
          | none => exact ⟨⟨reference.column + 1⟩, Nat.lt_succ_self _, nofun⟩
          | some K => exact ⟨K, ha K rfl, fun _ h => (Option.some.inj h).symm⟩
        exact ⟨L, [], c, j, r, hL, haligned, Nat.succ_pos n, .nil, by simpa using h, by simp⟩
      · obtain ⟨L, vs, e, i, t, hL, haligned, hn, hlines, hlast, rfl⟩ :=
          (ih (by rintro K ⟨⟩; exact hline.2)).1 hs
        obtain rfl := haligned _ rfl
        refine ⟨Cursor.level line, v :: vs, e, i, t, hL, ?_, Nat.succ_lt_succ hn,
          .cons hb hline.1 rfl hi hlines, by simpa using hlast, by simp⟩
        rintro K ⟨⟩
        exact hlevel.symm
    · rintro ⟨L, _ | ⟨v, vs⟩, e, i, s, hL, haligned, hn, hlines, hlast, rfl⟩
      · obtain ⟨rfl, rfl⟩ := lines_nil_iff.1 hlines
        exact .inl (by simpa using hlast)
      · obtain ⟨u, line, k, d, l, hb, hend, rfl, hi, hlines⟩ := lines_cons_iff.1 hlines
        have hlevel : Cursor.level line = aligned.getD (Cursor.level line) := by
          cases aligned with
          | none => rfl
          | some K => exact (haligned K rfl).symm
        have hs : blockItems blanks item reference false (some (Cursor.level line)) n d l =
            .ok (s.map (vs ++ ·), m) :=
          (ih (by rintro K ⟨⟩; exact hL)).2 ⟨Cursor.level line, vs, e, i, s, hL,
            by rintro K ⟨⟩; rfl, Nat.lt_of_succ_lt_succ hn, hlines, by simpa using hlast, rfl⟩
        exact .inr ⟨u, line, k, v, d, l, _, hb, ⟨hend, hL⟩, hlevel, hi, hs, by simp⟩

end Rounds

/-- How a block ends: with the blanks or the head in front of the items, or behind some aligned
items. -/
theorem block_ends_iff {r : Reply C τ (α × List β)} :
    block atLeastOne blanks head item n c j = .ok (r, m) ↔
      (∃ f, (blanks c j = .ok (.fail f, m) ∨
        ∃ u first k, blanks c j = .ok (.ok u first, k) ∧ head first k = .ok (.fail f, m)) ∧
          r = .fail f) ∨
      ∃ reference aligned h vs e i s, vs.length < n ∧ reference.column < aligned.column ∧
        Headed blanks head item (· = aligned) c j reference h vs e i ∧
        LastLine blanks item reference (atLeastOne && vs.isEmpty)
          (if vs.isEmpty then none else some aligned) e i s m ∧
        r = s.map fun ws => (h, vs ++ ws) := by
  simp only [block, keepRight, both, bind_ends_iff (p := blanks), bind_level]
  constructor
  · rintro (⟨f, hb, rfl⟩ | ⟨u, first, k, hb, hrest⟩)
    · exact .inl ⟨f, .inl hb, rfl⟩
    · obtain ⟨f, hh, rfl⟩ | ⟨h, d, l, hh, hmap⟩ := bind_ends_iff.1 hrest
      · exact .inl ⟨f, .inr ⟨u, first, k, hb, hh⟩, rfl⟩
      · obtain ⟨t, hi, rfl⟩ := map_ends_iff.1 hmap
        obtain ⟨L, vs, e, i, s, hL, -, hn, hlines, hlast, rfl⟩ :=
          (blockItems_eq_ok_iff (by simp)).1 hi
        exact .inr ⟨Cursor.level first, L, h, vs, e, i, s, hn, hL,
          ⟨u, first, k, d, l, hb, rfl, hh, hlines⟩, hlast, Reply.map_map ..⟩
  · rintro (⟨f, hb | ⟨u, first, k, hb, hh⟩, rfl⟩ |
      ⟨_, L, h, vs, e, i, s, hn, hL, ⟨u, first, k, d, l, hb, rfl, hh, hlines⟩, hlast, rfl⟩)
    · exact .inl ⟨f, hb, rfl⟩
    · exact .inr ⟨u, first, k, hb, bind_ends_iff.2 (.inl ⟨f, hh, rfl⟩)⟩
    · have hi := (blockItems_eq_ok_iff (by simp)).2
        ⟨L, vs, e, i, s, hL, by simp, hn, hlines, hlast, rfl⟩
      exact .inr ⟨u, first, k, hb, bind_ends_iff.2
        (.inr ⟨h, d, l, hh, map_ends_iff.2 ⟨_, hi, (Reply.map_map ..).symm⟩⟩)⟩

/-- A block has a value where its head is followed by aligned items, and these by a line outside
it. -/
theorem block_eq_ok_iff {h : α} : block atLeastOne blanks head item n c j = .ok (.ok (h, vs) e, m) ↔
    vs.length < n ∧ (atLeastOne = true → vs ≠ []) ∧
    ∃ reference aligned i, reference.column < aligned.column ∧
      Headed blanks head item (· = aligned) c j reference h vs e i ∧
      ∃ u last, blanks e i = .ok (.ok u last, m) ∧ Outside reference last := by
  rw [block_ends_iff]
  constructor
  · rintro (⟨f, -, ⟨⟩⟩ | ⟨R, L, h', vs', e', i, s, hn, hL, hheaded, hlast, hr⟩)
    obtain ⟨ws, rfl, ⟨⟩⟩ := Reply.map_eq_ok.1 hr.symm
    obtain ⟨rfl, rfl, hnone, hout⟩ := lastLine_ok_iff.1 hlast
    rw [List.append_nil]
    exact ⟨hn, by simpa using hnone, R, L, i, hL, hheaded, hout⟩
  · rintro ⟨hn, hsome, R, L, i, hL, hheaded, hout⟩
    refine .inr ⟨R, L, h, vs, e, i, .ok [] e, hn, hL, hheaded, ?_, by simp [Reply.map]⟩
    exact lastLine_ok_iff.2 ⟨rfl, rfl, by simpa using hsome, hout⟩

/-- Blocks are exactly the heads with aligned items. A block has a value where a head is followed by
items that all stand at one level further right, the blanks behind them lead to the end of the
input or to a line that is not further right than the head, and it ends in front of these blanks;
`n` bounds how often it asks for a line. It fails where the blanks, the head or an item does, with
their failures, at a line that is further right but not aligned, and without the items it needs. -/
theorem block_accepts_iff (atLeastOne : Bool) (blanks : Parser (Run σ) C τ γ)
    (head : Parser (Run σ) C τ α) (item : Parser (Run σ) C τ β) (n : Nat) (c : C)
    (j : Journal σ) :
    (∀ h vs e m, block atLeastOne blanks head item n c j = .ok (.ok (h, vs) e, m) ↔
      vs.length < n ∧ (atLeastOne = true → vs ≠ []) ∧
      ∃ reference aligned i, reference.column < aligned.column ∧
        Headed blanks head item (· = aligned) c j reference h vs e i ∧
        ∃ u last, blanks e i = .ok (.ok u last, m) ∧ Outside reference last) ∧
    ∀ f m, block atLeastOne blanks head item n c j = .ok (.fail f, m) ↔
      blanks c j = .ok (.fail f, m) ∨
      (∃ u first k, blanks c j = .ok (.ok u first, k) ∧ head first k = .ok (.fail f, m)) ∨
      ∃ reference aligned h vs e i, vs.length < n ∧ reference.column < aligned.column ∧
        Headed blanks head item (· = aligned) c j reference h vs e i ∧
        LastLine blanks item reference (atLeastOne && vs.isEmpty)
          (if vs.isEmpty then none else some aligned) e i (.fail f) m := by
  refine ⟨fun h vs e m => block_eq_ok_iff, fun f m => ?_⟩
  rw [block_ends_iff]
  constructor
  · rintro (⟨_, hb | hh, ⟨⟩⟩ | ⟨R, L, h, vs, e, i, s, hn, hL, hheaded, hlast, hr⟩)
    · exact .inl hb
    · exact .inr (.inl hh)
    · obtain rfl := Reply.map_eq_fail.1 hr.symm
      exact .inr (.inr ⟨R, L, h, vs, e, i, hn, hL, hheaded, hlast⟩)
  · rintro (hb | hh | ⟨R, L, h, vs, e, i, hn, hL, hheaded, hlast⟩)
    · exact .inl ⟨f, .inl hb, rfl⟩
    · exact .inl ⟨f, .inr hh, rfl⟩
    · exact .inr ⟨R, L, h, vs, e, i, .fail f, hn, hL, hheaded, hlast, rfl⟩

end Parser

end Descent
