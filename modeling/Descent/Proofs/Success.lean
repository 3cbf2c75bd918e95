import Descent.Parser.Choice
import Descent.Parser.Separated
import Descent.Proofs.Layout.Blocks
import Descent.Proofs.Repetition.MaximalRun

/-! What parsers are sure to do at a cursor, whatever was reported before: to succeed with a value
and lead to another cursor, or to fail. For each way to put parsers together there is a rule that
tells what the whole does from what the parts do. -/
namespace Descent.Parser

variable {σ C τ α β γ : Type} {c d e : C} {v : α} {w : β} {p : Parser (Run σ) C τ α}
  {k : α → Parser (Run σ) C τ β} {q : Parser (Run σ) C τ β}

def Gives (p : Parser (Run σ) C τ α) (c : C) (v : α) (d : C) : Prop :=
  ∀ j, ∃ l, p c j = .ok (.ok v d, l)

def Fails (p : Parser (Run σ) C τ α) (c : C) : Prop :=
  ∀ j, ∃ f l, p c j = .ok (.fail f, l)

def Refuses [Cursor C τ] (p : Parser (Run σ) C τ α) (c : C) : Prop :=
  ∀ j, ∃ f l, p c j = .ok (.fail f, l) ∧ f.consumedSince c = false

section Sequence

theorem gives_pure (v : α) (c : C) : Gives (pure v : Parser (Run σ) C τ α) c v c :=
  fun j => ⟨j, rfl⟩

theorem Gives.bind (hp : Gives p c v d) (hk : Gives (k v) d w e) : Gives (bind p k) c w e := by
  intro i
  obtain ⟨j, hp⟩ := hp i
  obtain ⟨l, hk⟩ := hk j
  exact ⟨l, (bind_of_ok hp).trans hk⟩

theorem Gives.map (hp : Gives p c v d) (f : α → β) : Gives (map p f) c (f v) d :=
  hp.bind (gives_pure (f v) d)

theorem Gives.both (hp : Gives p c v d) (hq : Gives q d w e) : Gives (both p q) c (v, w) e :=
  hp.bind (hq.map _)

theorem Gives.keepRight (hp : Gives p c v d) (hq : Gives q d w e) :
    Gives (keepRight p q) c w e :=
  hp.bind hq

theorem Gives.keepLeft (hp : Gives p c v d) (hq : Gives q d w e) : Gives (keepLeft p q) c v e :=
  hp.bind (hq.map _)

theorem Gives.fails_bind (hp : Gives p c v d) (hk : Fails (k v) d) :
    Fails (Parser.bind p k) c := by
  intro i
  obtain ⟨j, hp⟩ := hp i
  obtain ⟨f, l, hk⟩ := hk j
  exact ⟨f, l, (bind_of_ok hp).trans hk⟩

theorem Fails.bind (hp : Fails p c) (k : α → Parser (Run σ) C τ β) :
    Fails (Parser.bind p k) c := by
  intro j
  obtain ⟨f, l, hp⟩ := hp j
  exact ⟨f, l, bind_of_fail hp⟩

theorem Gives.attempt (hp : Gives p c v d) : Gives (Parser.attempt p) c v d := by
  intro j
  obtain ⟨l, hp⟩ := hp j
  exact ⟨l, Run.bind_of_ok hp⟩

theorem Gives.deferred (hp : Gives p c v d) (supplier : Supplier) (made : List Event) :
    Gives (deferred p supplier made) c v d :=
  fun j => hp (j.build supplier made)

theorem Gives.expecting (hp : Gives p c v d) (label : String) :
    Gives (expecting p label) c v d := by
  intro j
  obtain ⟨l, hp⟩ := hp j
  exact ⟨l, Run.bind_of_ok hp⟩

variable [Cursor C τ]

theorem Refuses.expecting (hp : Refuses p c) (label : String) :
    Refuses (Parser.expecting p label) c := by
  intro j
  obtain ⟨f, l, hp, hf⟩ := hp j
  exact ⟨{ f with error := f.error.relabel label }, l, Run.bind_of_ok hp, hf⟩

theorem Refuses.deferred (hp : Refuses p c) (supplier : Supplier) (made : List Event) :
    Refuses (deferred p supplier made) c :=
  fun j => hp (j.build supplier made)

theorem Refuses.fails (hp : Refuses p c) : Fails p c := by
  intro j
  obtain ⟨f, l, hp, _⟩ := hp j
  exact ⟨f, l, hp⟩

theorem Refuses.bind (hp : Refuses p c) (k : α → Parser (Run σ) C τ β) :
    Refuses (bind p k) c := by
  intro j
  obtain ⟨f, l, hp, hf⟩ := hp j
  exact ⟨f, l, bind_of_fail hp, hf⟩

/-- A parser that consumes nothing leaves the refusal to the next. -/
theorem Gives.refuses_bind (hp : Gives p c v c) (hk : Refuses (k v) c) :
    Refuses (Parser.bind p k) c := by
  intro i
  obtain ⟨j, hp⟩ := hp i
  obtain ⟨f, l, hk, hf⟩ := hk j
  exact ⟨f, l, (bind_of_ok hp).trans hk, hf⟩

theorem gives_level (c : C) : Gives (level : Parser (Run σ) C τ Level) c (Cursor.level c) c :=
  fun j => ⟨j, rfl⟩

/-- Failures where the parser stands have consumed nothing. -/
theorem refuses_of_fail (h : ∀ j, ∃ e l, p c j = .ok (.fail ⟨e, c⟩, l)) : Refuses p c := by
  intro j
  obtain ⟨e, l, h⟩ := h j
  refine ⟨⟨e, c⟩, l, h, ?_⟩
  simp [Failure.consumedSince, Cursor.same]

theorem refuses_accept [Advance (Run σ) C] {pick : τ → Option α}
    (h : ∀ t, Cursor.current c = some t → pick t = none) (label : String) :
    Refuses (accept pick label : Parser (Run σ) C τ α) c := by
  refine refuses_of_fail fun j => ?_
  unfold accept
  cases hc : Cursor.current c with
  | none => exact ⟨_, j, rfl⟩
  | some t =>
    simp only [h t hc]
    exact ⟨_, j, rfl⟩

theorem gives_endOfInput (h : Cursor.current c = none) :
    Gives (endOfInput : Parser (Run σ) C τ Unit) c () c := by
  intro j
  refine ⟨j, ?_⟩
  unfold endOfInput
  rw [h]
  rfl

end Sequence

section Alternatives

variable [Cursor C τ] {q : Parser (Run σ) C τ α}

theorem Gives.orElse [DecidableEq τ] (hp : Gives p c v d) (q : Parser (Run σ) C τ α) :
    Gives (orElse p q) c v d := by
  intro j
  obtain ⟨l, hp⟩ := hp j
  exact ⟨l, Run.bind_of_ok hp⟩

theorem Refuses.orElse_gives [DecidableEq τ] (hp : Refuses p c) (hq : Gives q c v d) :
    Gives (Parser.orElse p q) c v d := by
  intro i
  obtain ⟨f, j, hp, hf⟩ := hp i
  obtain ⟨l, hq⟩ := hq j
  refine ⟨l, ?_⟩
  rw [Parser.orElse, Run.bind_of_ok hp]
  simp only [hf, Bool.false_eq_true, if_false]
  exact Run.bind_of_ok hq

/-- Merged failures stop where the first did unless the second got further. -/
theorem Refuses.orElse [DecidableEq τ] (hp : Refuses p c) (hq : Refuses q c) :
    Refuses (Parser.orElse p q) c := by
  intro i
  obtain ⟨f, j, hp, hf⟩ := hp i
  obtain ⟨g, l, hq, hg⟩ := hq j
  refine ⟨f.merge g, l, ?_, ?_⟩
  · rw [Parser.orElse, Run.bind_of_ok hp]
    simp only [hf, Bool.false_eq_true, if_false]
    exact Run.bind_of_ok hq
  · unfold Failure.merge
    split
    · exact hg
    · exact hf

theorem Fails.attempt (hp : Fails p c) : Refuses (Parser.attempt p) c := by
  refine refuses_of_fail fun j => ?_
  obtain ⟨f, l, hp⟩ := hp j
  exact ⟨f.error, l, Run.bind_of_ok hp⟩

end Alternatives

section Repetition

variable [Cursor C τ] {separator : Parser (Run σ) C τ β} {vs : List α} {n : Nat}

theorem Refuses.repeated (hp : Refuses p c) (strict : Bool) (n : Nat) :
    Gives (repeated strict p (n + 1)) c [] c := by
  intro j
  obtain ⟨f, l, hp, hf⟩ := hp j
  exact ⟨l, (LastRun.refused hp hf).repeated_eq n⟩

theorem Gives.repeated (hp : Gives p c v d) (h : Gives (repeated false p n) d vs e) :
    Gives (Parser.repeated false p (n + 1)) c (v :: vs) e := by
  intro i
  obtain ⟨j, hp⟩ := hp i
  obtain ⟨l, h⟩ := h j
  exact ⟨l, repeated_succ_iff.2 (.inr ⟨v, d, j, _, ⟨hp, nofun⟩, h, rfl⟩)⟩

theorem Refuses.sepRest (hs : Refuses separator c) (p : Parser (Run σ) C τ α) (n : Nat) :
    Gives (sepRest p separator (n + 1)) c [] c := by
  intro j
  obtain ⟨f, l, hs, hf⟩ := hs j
  refine ⟨l, ?_⟩
  rw [Parser.sepRest, Run.bind_of_ok hs]
  simp only [hf, Bool.false_eq_true, if_false]
  rfl

theorem Gives.sepRest {c' : C} (hs : Gives separator c w c') (hp : Gives p c' v d)
    (h : Gives (sepRest p separator n) d vs e) :
    Gives (Parser.sepRest p separator (n + 1)) c (v :: vs) e := by
  intro i
  obtain ⟨j, hs⟩ := hs i
  obtain ⟨k, hp⟩ := hp j
  obtain ⟨l, h⟩ := h k
  refine ⟨l, ?_⟩
  rw [Parser.sepRest, Run.bind_of_ok hs]
  dsimp only
  rw [Run.bind_of_ok hp]
  exact Run.bind_of_ok h

theorem Refuses.sepBy (hp : Refuses p c) (separator : Parser (Run σ) C τ β) (n : Nat) :
    Gives (sepBy false p separator n) c [] c := by
  intro j
  obtain ⟨f, l, hp, hf⟩ := hp j
  refine ⟨l, ?_⟩
  rw [Parser.sepBy, Run.bind_of_ok hp]
  simp only [hf, Bool.or_self, Bool.false_eq_true, if_false]
  rfl

theorem Gives.sepBy (hp : Gives p c v d) (h : Gives (Parser.sepRest p separator n) d vs e)
    (atLeastOne : Bool) : Gives (sepBy atLeastOne p separator n) c (v :: vs) e := by
  intro i
  obtain ⟨j, hp⟩ := hp i
  obtain ⟨l, h⟩ := h j
  refine ⟨l, ?_⟩
  rw [Parser.sepBy, Run.bind_of_ok hp]
  exact Run.bind_of_ok h

end Repetition

section Layout

variable [Cursor C τ] {blanks : Parser (Run σ) C τ γ} {u : γ} {relation : Relation}
  {reference : Level}

theorem gives_checkLevel (h : relation.satisfies reference (Cursor.level c) = true) :
    Gives (checkLevel relation reference : Parser (Run σ) C τ Level) c (Cursor.level c) c := by
  intro j
  refine ⟨j, ?_⟩
  rw [checkLevel, if_pos h]
  rfl

theorem refuses_checkLevel (h : relation.satisfies reference (Cursor.level c) = false) :
    Refuses (checkLevel relation reference : Parser (Run σ) C τ Level) c := by
  refine refuses_of_fail fun j => ?_
  let report := Event.misindented (Cursor.position c).line relation reference (Cursor.level c)
  refine ⟨(indentationFailure c relation reference).error,
    { j with events := j.events ++ [report] }, ?_⟩
  rw [checkLevel, if_neg (by rw [h]; exact Bool.false_ne_true)]
  rfl

variable {item : Parser (Run σ) C τ β} {aligned : Option Level} {line : C} {ws : List β} {n : Nat}

/-- A block ends before a line that is not indented further than its head. -/
theorem Gives.blockItems_end (hb : Gives blanks c u line)
    (h : Cursor.isEnd line = true ∨ (Cursor.level line).column ≤ reference.column) :
    Gives (blockItems blanks item reference false aligned (n + 1)) c [] c := by
  intro j
  obtain ⟨l, hb⟩ := hb j
  exact ⟨l, (LastLine.outside hb h rfl).blockItems_eq n⟩

/-- An item of a block stands where the first one stood. -/
theorem Gives.blockItems_cons (hb : Gives blanks c u line) (hend : Cursor.isEnd line = false)
    (hlt : reference.column < (Cursor.level line).column)
    (ha : aligned.getD (Cursor.level line) = Cursor.level line) (hi : Gives item line w d)
    (h : Gives (blockItems blanks item reference false (some (Cursor.level line)) n) d ws e) :
    Gives (blockItems blanks item reference false aligned (n + 1)) c (w :: ws) e := by
  intro i
  obtain ⟨j, hb⟩ := hb i
  obtain ⟨k, hi⟩ := hi j
  obtain ⟨l, h⟩ := h k
  have hline : Within reference line := ⟨hend, hlt⟩
  exact ⟨l, blockItems_succ_iff.2
    (.inr ⟨u, line, j, w, d, k, _, hb, hline, ha.symm, hi, h, rfl⟩)⟩

theorem Gives.block {head : Parser (Run σ) C τ α} (hb : Gives blanks c u line)
    (hh : Gives head line v d)
    (hi : Gives (blockItems blanks item (Cursor.level line) false none n) d ws e) :
    Gives (block false blanks head item n) c (v, ws) e :=
  hb.keepRight ((gives_level line).bind (hh.both hi))

end Layout

end Descent.Parser
