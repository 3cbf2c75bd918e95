import Descent.Proofs.Answers
import Descent.Proofs.Layout.Blocks
import Descent.Proofs.Layout.Items

/-! A run of items at the level of a block's first item reads the block's items. The two loops stop
for different reasons: a block at a line that is not further right than its head, a run at a line
at any other level. Between them lie only the lines that a block fails at, so that a run ends in
front of the same blanks wherever the block has a value. At the end of the input a block is
content, while the run asks the item what it has to say. -/
namespace Descent.Parser

variable {σ C τ α β γ : Type} [Cursor C τ] {blanks : Parser (Run σ) C τ γ}
  {head : Parser (Run σ) C τ α} {item : Parser (Run σ) C τ β} {relation : Relation}
  {reference : Level} {atLeastOne needsOne : Bool} {c e last : C} {u : γ} {w : α} {v : β}
  {vs : List β} {n : Nat} {i j m : Journal σ}

section Rounds

variable {r : Reply C τ (List β)}

/-- A run in front of lines with items reads these, and goes on behind them. -/
theorem Lines.itemsAt_ends_iff
    (h : Lines blanks item (relation.satisfies reference · = true) c j vs e i) :
    itemsAt reference relation blanks item false (n + vs.length) c j = .ok (r, m) ↔
      ∃ s, itemsAt reference relation blanks item false n e i = .ok (s, m) ∧
        r = s.map (vs ++ ·) := by
  induction h generalizing r with
  | nil => simp
  | cons hb hend hfits hi _ ih =>
    rw [List.length_cons, ← Nat.add_assoc,
      OnLine.itemsAt_ends_iff ⟨_, _, _, hb, hend, hfits, hi⟩]
    simp only [ih]
    constructor
    · rintro ⟨_, ⟨s, hs, rfl⟩, rfl⟩
      exact ⟨s, hs, Reply.map_map ..⟩
    · rintro ⟨s, hs, rfl⟩
      exact ⟨s.map _, ⟨s, hs, rfl⟩, by simp⟩

/-- Where the blanks lead to the end of the input or to a token whose level does not fit, a run
stops if it comes to an answer. -/
theorem itemsAt_ends_of_line (hb : blanks e i = .ok (.ok u last, m))
    (hlast : Cursor.isEnd last = true ∨
      relation.satisfies reference (Cursor.level last) = false) :
    (∃ k, itemsAt reference relation blanks item false (n + 1) e i = .ok (r, k)) ↔
      r = .ok [] e ∧ (Cursor.isEnd last = true → ∃ s k, item last m = .ok (s, k)) := by
  cases hend : Cursor.isEnd last with
  | true =>
    rw [itemsAt_of_end hb hend]
    constructor
    · rintro ⟨k, h⟩
      obtain ⟨⟨v, d⟩ | f, l, hi, h⟩ := Run.bind_eq_ok.1 h
      · cases h
        exact ⟨rfl, fun _ => ⟨_, _, hi⟩⟩
      · cases h
        exact ⟨rfl, fun _ => ⟨_, _, hi⟩⟩
    · rintro ⟨rfl, h⟩
      obtain ⟨⟨v, d⟩ | f, l, hi⟩ := h rfl
      · exact ⟨l, Run.bind_of_ok hi⟩
      · exact ⟨l, Run.bind_of_ok hi⟩
  | false =>
    rw [itemsAt_of_misplaced hb hend (hlast.resolve_left (by simp [hend]))]
    constructor
    · rintro ⟨k, ⟨⟩⟩
      exact ⟨rfl, nofun⟩
    · rintro ⟨rfl, -⟩
      exact ⟨m, rfl⟩

/-- So a run over some items, and then such a line, has the values of the items. -/
theorem Lines.itemsAt_reads
    (h : Lines blanks item (relation.satisfies reference · = true) c j (v :: vs) e i)
    (hn : (v :: vs).length < n) (hb : blanks e i = .ok (.ok u last, m))
    (hlast : Cursor.isEnd last = true ∨
      relation.satisfies reference (Cursor.level last) = false) :
    (∃ k, itemsAt reference relation blanks item atLeastOne n c j = .ok (r, k)) ↔
      r = .ok (v :: vs) e ∧ (Cursor.isEnd last = true → ∃ s k, item last m = .ok (s, k)) := by
  obtain ⟨n, rfl⟩ : ∃ p, n = p + 1 + (v :: vs).length := ⟨n - (v :: vs).length - 1, by omega⟩
  have hfirst : itemsAt reference relation blanks item atLeastOne (n + 1 + (v :: vs).length) c j =
      itemsAt reference relation blanks item false (n + 1 + (v :: vs).length) c j := by
    obtain ⟨_, _, _, _, _, hb, hend, hfits, hi, -⟩ := lines_cons_iff.1 h
    have hv : OnLine blanks item (relation.satisfies reference · = true) c j v _ _ :=
      ⟨_, _, _, hb, hend, hfits, hi⟩
    exact (hv.itemsAt_eq _).trans (hv.itemsAt_eq _).symm
  simp only [hfirst, h.itemsAt_ends_iff]
  constructor
  · rintro ⟨k, s, hs, rfl⟩
    obtain ⟨rfl, hend⟩ := (itemsAt_ends_of_line hb hlast).1 ⟨k, hs⟩
    exact ⟨by simp [Reply.map], hend⟩
  · rintro ⟨rfl, hend⟩
    obtain ⟨k, hs⟩ := (itemsAt_ends_of_line hb hlast).2 ⟨rfl, hend⟩
    exact ⟨k, _, hs, by simp [Reply.map]⟩

end Rounds

/-- A run of items keeps no memory of its own. -/
theorem Uniform.itemsAt {S : Set (Journal σ)} (hb : Uniform S blanks) (hi : Uniform S item) :
    Uniform S (itemsAt reference relation blanks item atLeastOne n) := by
  intro c
  change Run.Uniform S (Parser.itemsAt reference relation blanks item atLeastOne n c)
  -- on the rounds; whichever way a round goes, what is run in it answers alike in all the states
  induction n generalizing atLeastOne c with
  | zero => rintro _ _ _ _ ⟨⟩
  | succ n ih =>
    refine .bind (@hb c) ?_
    rintro (⟨u, line⟩ | f)
    · refine iteInduction (fun _ => ?_) fun _ => iteInduction (fun _ => ?_) fun _ => .pure _
      · refine .bind (@hi line) ?_
        rintro (⟨v, d⟩ | f) <;> exact .pure _
      · refine .bind (@hi line) ?_
        rintro (⟨v, d⟩ | f)
        · exact .bind (@ih _ d) fun s => .pure _
        · exact iteInduction (fun _ => .pure _) fun _ => .pure _
    · exact .pure _

/-- A run of items reads the items of a block. From behind the block's header, and at the level of
its first item, it comes to the block's items and ends where the block does, in front of the same
blanks; a run that needs an item does so too. It has this answer or none, and has none only where
the item itself has none at the end of the input, where the block does not run it. And where the
answers of the parts do not depend on the state, the run may begin in any of the states. -/
theorem itemsAt_reads_block
    (h : block needsOne blanks head item n c j = .ok (.ok (w, v :: vs) e, m)) :
    ∃ u first k d l, blanks c j = .ok (.ok u first, k) ∧ head first k = .ok (.ok w d, l) ∧
    ∃ u line k, blanks d l = .ok (.ok u line, k) ∧
    ∃ i u last, Lines blanks item (· = Cursor.level line) d l (v :: vs) e i ∧
      blanks e i = .ok (.ok u last, m) ∧ ∀ atLeastOne,
      (∀ r, (∃ m', itemsAt (Cursor.level line) .eq blanks item atLeastOne n d l = .ok (r, m')) ↔
        r = .ok (v :: vs) e ∧ (Cursor.isEnd last = true → ∃ r m', item last m = .ok (r, m'))) ∧
      ∀ S, Uniform S blanks → Uniform S item → l ∈ S →
        (Cursor.isEnd last = true → ∃ r m', item last m = .ok (r, m')) →
        Answers S (itemsAt (Cursor.level line) .eq blanks item atLeastOne n) d
          (.ok (v :: vs) e) := by
  obtain ⟨hn, -, R, L, i, hL, ⟨u, first, k, d, l, hfirst, -, hhead, hlines⟩, u', last, hlast,
    hout⟩ := block_eq_ok_iff.1 h
  obtain ⟨u'', line, k', -, -, hline, -, rfl, -, -⟩ := lines_cons_iff.1 hlines
  have hlines' : Lines blanks item (Relation.satisfies .eq (Cursor.level line) · = true) d l
      (v :: vs) e i := hlines.mono fun _ hlevel => hlevel ▸ beq_self_eq_true _
  -- a line that ends the block does not stand at the level of its items
  have hstops : Cursor.isEnd last = true ∨
      Relation.satisfies .eq (Cursor.level line) (Cursor.level last) = false :=
    hout.imp_right fun hle => beq_eq_false_iff_ne.2 (by omega)
  refine ⟨u, first, k, d, l, hfirst, hhead, u'', line, k', hline, i, u', last, hlines, hlast,
    fun atLeastOne => ⟨fun r => hlines'.itemsAt_reads hn hlast hstops, ?_⟩⟩
  intro S hblanks hitem hl hanswers
  obtain ⟨m', hrun⟩ := (hlines'.itemsAt_reads hn hlast hstops).2 ⟨rfl, hanswers⟩
  exact hblanks.itemsAt hitem hl hrun

def twoWords : TokenCursor Char := .ofText "l\n  a\n  b\n" 4

def gap : Parser (Run Unit) (TokenCursor Char) Char Unit := .blanks 8

def word : Parser (Run Unit) (TokenCursor Char) Char String := identifier 8

/-- The two words are the items of a block, and of a run in the third column. -/
theorem itemsAt_reads_block_twoWords :
    block false gap word word 8 twoWords ⟨(), [], []⟩ =
        .ok (.ok ("l", ["a", "b"]) (twoWords.forward 9), ⟨(), [], []⟩) ∧
      ∀ atLeastOne, ∃ m, itemsAt ⟨3⟩ .eq gap word atLeastOne 8 (twoWords.forward 1) ⟨(), [], []⟩ =
        .ok (.ok ["a", "b"] (twoWords.forward 9), m) := by
  have hblock : block false gap word word 8 twoWords ⟨(), [], []⟩ =
      .ok (.ok ("l", ["a", "b"]) (twoWords.forward 9), ⟨(), [], []⟩) := rfl
  obtain ⟨_, _, _, _, _, hfirst, hhead, _, _, _, hline, i, _, _, -, hlast, hruns⟩ :=
    itemsAt_reads_block hblock
  have hgap : gap twoWords ⟨(), [], []⟩ = .ok (.ok () twoWords, ⟨(), [], []⟩) := rfl
  cases hgap.symm.trans hfirst
  have hword : word twoWords ⟨(), [], []⟩ = .ok (.ok "l" (twoWords.forward 1), ⟨(), [], []⟩) := rfl
  cases hword.symm.trans hhead
  have hgap : gap (twoWords.forward 1) ⟨(), [], []⟩ =
      .ok (.ok () (twoWords.forward 4), ⟨(), [], []⟩) := rfl
  cases hgap.symm.trans hline
  have hgap : gap (twoWords.forward 9) i = .ok (.ok () (twoWords.forward 10), i) := rfl
  cases hgap.symm.trans hlast
  exact ⟨hblock, fun atLeastOne => ((hruns atLeastOne).1 _).2 ⟨rfl, fun _ => ⟨_, _, rfl⟩⟩⟩

end Descent.Parser
