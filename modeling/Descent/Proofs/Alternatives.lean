import Descent.Parser.Choice
import Descent.Proofs.Forward

/-! Alternatives in a list and alternatives two by two. A list of alternatives behaves like its
parsers joined from the left with `orElse`, but for the error of an alternative that fails after it
consumed input: the list passes that error on as it is, and `orElse` merges it into the errors of
the alternatives before. The replies differ exactly where merging changes it. -/
namespace Descent

variable {σ C τ α : Type} [Cursor C τ]

/-- A failure that consumed nothing stopped in the place where it started. -/
theorem Failure.offset_eq {f : Failure C τ} {c : C} (h : f.consumedSince c = false) :
    Cursor.offset f.cursor = Cursor.offset c := by
  simpa [consumedSince, Cursor.same] using h

theorem Failure.offset_ne {f : Failure C τ} {c : C} (h : f.consumedSince c = true) :
    Cursor.offset f.cursor ≠ Cursor.offset c := by
  simpa [consumedSince, Cursor.same] using h

theorem Failure.consumedSince_cursor (f : Failure C τ) : f.consumedSince f.cursor = false := by
  simp [consumedSince, Cursor.same]

namespace Parser

def NeverBack (p : Parser (Run σ) C τ α) : Prop :=
  ∀ ⦃c : C⦄ ⦃j k : Journal σ⦄ ⦃f : Failure C τ⦄, p c j = .ok (.fail f, k) →
    Cursor.offset c ≤ Cursor.offset f.cursor

/-- What a run ended with leaves no room for another alternative: it halted, it has a value, or it
failed after it consumed input. -/
def Settled (c : C) : Outcome (Reply C τ α × Journal σ) → Prop
  | .ok (.fail f, _) => f.consumedSince c = true
  | _ => True

theorem settled_or_passed (c : C) (x : Outcome (Reply C τ α × Journal σ)) :
    Settled c x ∨ ∃ f k, x = .ok (.fail f, k) ∧ f.consumedSince c = false := by
  rcases x with _ | ⟨⟨v, d⟩ | f, k⟩
  · exact .inl trivial
  · exact .inl trivial
  · cases hf : f.consumedSince c with
    | false => exact .inr ⟨f, k, rfl, hf⟩
    | true => exact .inl hf

/-- What comes after a failure that consumed nothing is not reached from a settled end. -/
theorem commit_of_settled {p : Parser (Run σ) C τ α} {c : C} {j : Journal σ}
    (h : Settled c (p c j)) (next : Failure C τ → Run σ (Reply C τ α)) :
    (do
      match ← p c with
      | .ok v d => return .ok v d
      | .fail f => if f.consumedSince c then return .fail f else next f : Run σ _) j = p c j := by
  rcases hp : p c j with _ | ⟨⟨v, d⟩ | f, k⟩
  · change (p c j >>= fun r => _) = _
    rw [hp]
    rfl
  · rw [Run.bind_of_ok hp]
    rfl
  · have hf : f.consumedSince c = true := by rwa [hp] at h
    rw [Run.bind_of_ok hp]
    simp only [hf, if_true]
    rfl

variable [DecidableEq τ]

/-- Alternatives that fail from `c` one after another and consume nothing. Their failures are
merged into the one on the left, and the result is the one on the right. -/
inductive PassedOver (c : C) : Option (Failure C τ) → Journal σ → List (Parser (Run σ) C τ α) →
    Option (Failure C τ) → Journal σ → Prop where
  | nil {failed : Option (Failure C τ)} {j : Journal σ} : PassedOver c failed j [] failed j
  | cons {p : Parser (Run σ) C τ α} {more : List (Parser (Run σ) C τ α)} {f : Failure C τ}
      {failed failed' : Option (Failure C τ)} {j k l : Journal σ}
      (hp : p c j = .ok (.fail f, k)) (hf : f.consumedSince c = false)
      (h : PassedOver c (some (f.after failed)) k more failed' l) :
      PassedOver c failed j (p :: more) failed' l

/-- Some alternatives are passed over, with failures that merge to `failed`, and the next one
consumes input and fails with `f`. -/
def CommitsAfter (c : C) (j : Journal σ) (alternatives : List (Parser (Run σ) C τ α))
    (failed f : Failure C τ) (l : Journal σ) : Prop :=
  ∃ before q after k, alternatives = before ++ q :: after ∧
    PassedOver c none j before (some failed) k ∧ q c k = .ok (.fail f, l) ∧
    f.consumedSince c = true

variable {p q : Parser (Run σ) C τ α} {ps before : List (Parser (Run σ) C τ α)} {c : C}
  {f g : Failure C τ} {failed failed' : Option (Failure C τ)} {j k l : Journal σ}

section Choice

theorem choiceAfter_of_passed (hp : p c j = .ok (.fail f, k)) (hf : f.consumedSince c = false) :
    choiceAfter failed (p :: ps) c j = choiceAfter (some (f.after failed)) ps c k := by
  rw [choiceAfter, Run.bind_of_ok hp]
  simp only [hf, Bool.false_eq_true, if_false]

theorem choiceAfter_of_settled (h : Settled c (p c j)) :
    choiceAfter failed (p :: ps) c j = p c j :=
  commit_of_settled h _

theorem choiceAfter_of_passedOver (h : PassedOver c failed j before failed' k)
    (more : List (Parser (Run σ) C τ α)) :
    choiceAfter failed (before ++ more) c j = choiceAfter failed' more c k := by
  induction h with
  | nil => rfl
  | cons hp hf _ ih => rw [List.cons_append, choiceAfter_of_passed hp hf, ih]

end Choice

section Joined

theorem orElse_of_settled (h : Settled c (p c j)) : orElse p q c j = p c j :=
  commit_of_settled h _

theorem foldl_orElse_of_settled (h : Settled c (p c j)) : ps.foldl orElse p c j = p c j := by
  induction ps generalizing p with
  | nil => rfl
  | cons q ps ih =>
    have hq : orElse p q c j = p c j := orElse_of_settled h
    rw [List.foldl_cons, ih (by rwa [hq]), hq]

/-- Two failures in turn are merged, if the first consumed nothing. -/
theorem orElse_of_fail (hp : p c j = .ok (.fail f, k)) (hf : f.consumedSince c = false)
    (hq : q c k = .ok (.fail g, l)) : orElse p q c j = .ok (.fail (f.merge g), l) := by
  rw [orElse, Run.bind_of_ok hp]
  simp only [hf, Bool.false_eq_true, if_false]
  rw [Run.bind_of_ok hq]
  rfl

/-- Where nothing was consumed and merging changes nothing, the second parser decides alone. -/
theorem orElse_of_passed (hp : p c j = .ok (.fail f, k)) (hf : f.consumedSince c = false)
    (hq : ∀ g l, q c k = .ok (.fail g, l) → f.merge g = g) : orElse p q c j = q c k := by
  rw [orElse, Run.bind_of_ok hp]
  simp only [hf, Bool.false_eq_true, if_false]
  change (q c k >>= fun r => _) = _
  rcases hqk : q c k with _ | ⟨⟨v, d⟩ | g, l⟩
  · rfl
  · rfl
  · change (.ok (.fail (f.merge g), l) : Outcome (Reply C τ α × Journal σ)) = _
    rw [hq g l hqk]

/-- Where two failures consumed nothing, neither did the two merged. -/
theorem merge_passed (hf : f.consumedSince c = false) (hg : g.consumedSince c = false) :
    (f.merge g).consumedSince c = false := by
  have heq : ¬Cursor.offset f.cursor < Cursor.offset g.cursor := by
    rw [f.offset_eq hf, g.offset_eq hg]
    exact Nat.lt_irrefl _
  simpa [Failure.merge, Failure.consumedSince, heq] using hf

/-- A failure that got further than one that consumed nothing keeps its cursor. -/
theorem merge_committed (hf : f.consumedSince c = false) (hg : g.consumedSince c = true)
    (hback : Cursor.offset c ≤ Cursor.offset g.cursor) :
    f.merge g = ⟨f.error.merge g.error, g.cursor⟩ := by
  have hlt : Cursor.offset f.cursor < Cursor.offset g.cursor := by
    rw [f.offset_eq hf]
    exact Nat.lt_of_le_of_ne hback (g.offset_ne hg).symm
  rw [Failure.merge, if_pos hlt]

/-- Joined parsers that are passed over fail with what their failures merge to. -/
theorem foldl_orElse_of_passedOver (hp : p c j = .ok (.fail f, k))
    (hf : f.consumedSince c = false) (h : PassedOver c (some f) k before (some g) l) :
    before.foldl orElse p c j = .ok (.fail g, l) ∧ g.consumedSince c = false := by
  induction before generalizing p f k with
  | nil =>
    cases h
    exact ⟨hp, hf⟩
  | cons q before ih =>
    cases h with
    | cons hq hg h => exact ih (orElse_of_fail hp hf hq) (merge_passed hf hg) h

/-- Where every failure that consumed input comes out of merging as it is, the parsers joined do
what the list does. -/
theorem foldl_orElse_eq_choiceAfter (hback : ∀ q ∈ ps, NeverBack q)
    (hp : p c j = .ok (.fail f, k)) (hf : f.consumedSince c = false)
    (h : ∀ before q after f' g l m, ps = before ++ q :: after →
      PassedOver c (some f) k before (some f') l → q c l = .ok (.fail g, m) →
      g.consumedSince c = true → f'.error.merge g.error = g.error) :
    ps.foldl orElse p c j = choiceAfter (some f) ps c k := by
  induction ps generalizing p f k with
  | nil => exact hp
  | cons q ps ih =>
    rw [List.foldl_cons]
    rcases settled_or_passed c (q c k) with hq | ⟨g, l, hq, hg⟩
    · have hsame : orElse p q c j = q c k := by
        refine orElse_of_passed hp hf fun g l hqk => ?_
        have hg : g.consumedSince c = true := by rwa [hqk] at hq
        rw [merge_committed hf hg (hback q List.mem_cons_self hqk),
          h [] q ps f g k l rfl .nil hqk hg]
      rw [foldl_orElse_of_settled (by rwa [hsame]), hsame, choiceAfter_of_settled hq]
    · rw [choiceAfter_of_passed hq hg]
      refine ih (fun r hr => hback r (List.mem_cons_of_mem q hr)) (orElse_of_fail hp hf hq)
        (merge_passed hf hg) fun before r after f' g' l' m hps hpass hr => ?_
      exact h (q :: before) r after f' g' l' m (by rw [hps]; rfl) (.cons hq hg hpass) hr

end Joined

/-- Both replies where an alternative commits after others were passed over. -/
theorem commitsAfter_replies (hback : ∀ q ∈ p :: ps, NeverBack q)
    (h : CommitsAfter c j (p :: ps) f g l) :
    choice (p :: ps) c j = .ok (.fail g, l) ∧
      ps.foldl orElse p c j = .ok (.fail ⟨f.error.merge g.error, g.cursor⟩, l) := by
  obtain ⟨before, q, after, k, hps, hpass, hq, hg⟩ := h
  have hsettled : Settled c (q c k) := by rwa [hq]
  constructor
  · rw [choice, hps, choiceAfter_of_passedOver hpass, choiceAfter_of_settled hsettled, hq]
  · cases hpass with
    | cons hp hf hpass =>
      rw [List.cons_append, List.cons.injEq] at hps
      obtain ⟨rfl, rfl⟩ := hps
      obtain ⟨hbefore, hf'⟩ := foldl_orElse_of_passedOver hp hf hpass
      have hmerge : f.merge g = ⟨f.error.merge g.error, g.cursor⟩ :=
        merge_committed hf' hg (hback q (by simp) hq)
      have hjoined := orElse_of_fail hbefore hf' hq
      rw [hmerge] at hjoined
      rw [List.foldl_append, List.foldl_cons, foldl_orElse_of_settled, hjoined]
      rw [hjoined]
      exact hg

/-- When a list of alternatives is its parsers joined from the left. The two do the same if and
only if no alternative commits whose error, merged into those of the alternatives before, would
change. Where one does, both fail there, the list with the error of that alternative alone and the
joined parsers with all errors merged; so values, and the cursors of both replies, always agree. -/
theorem foldl_orElse_eq_choice_iff (hback : ∀ q ∈ p :: ps, NeverBack q) (c : C) (j : Journal σ) :
    (ps.foldl orElse p c j = choice (p :: ps) c j ↔
      ∀ f g l, CommitsAfter c j (p :: ps) f g l → f.error.merge g.error = g.error) ∧
    (∀ f g l, CommitsAfter c j (p :: ps) f g l →
      choice (p :: ps) c j = .ok (.fail g, l) ∧
        ps.foldl orElse p c j = .ok (.fail ⟨f.error.merge g.error, g.cursor⟩, l)) ∧
    ∀ v d l,
      ps.foldl orElse p c j = .ok (.ok v d, l) ↔ choice (p :: ps) c j = .ok (.ok v d, l) := by
  have hreplies (f g : Failure C τ) (l : Journal σ) (h : CommitsAfter c j (p :: ps) f g l) :=
    commitsAfter_replies hback h
  have heq (h : ∀ f g l, CommitsAfter c j (p :: ps) f g l → f.error.merge g.error = g.error) :
      ps.foldl orElse p c j = choice (p :: ps) c j := by
    rcases settled_or_passed c (p c j) with hp | ⟨f, k, hp, hf⟩
    · rw [foldl_orElse_of_settled hp, choice, choiceAfter_of_settled hp]
    · rw [choice, choiceAfter_of_passed hp hf]
      refine foldl_orElse_eq_choiceAfter (fun q hq => hback q (List.mem_cons_of_mem p hq)) hp hf
        fun before q after f' g l m hps hpass hq hg => h f' g m ?_
      exact ⟨p :: before, q, after, l, by rw [hps]; rfl, .cons hp hf hpass, hq, hg⟩
  refine ⟨⟨fun h f g l hc => ?_, heq⟩, hreplies, fun v d l => ?_⟩
  · obtain ⟨hchoice, hfold⟩ := hreplies f g l hc
    rw [hchoice, hfold] at h
    simp only [Except.ok.injEq, Prod.mk.injEq, Reply.fail.injEq, and_true] at h
    exact congrArg Failure.error h
  · by_cases hc : ∃ f g l, CommitsAfter c j (p :: ps) f g l
    · obtain ⟨f, g, m, hc⟩ := hc
      obtain ⟨hchoice, hfold⟩ := hreplies f g m hc
      rw [hchoice, hfold]
      simp
    · rw [heq fun f g l h => absurd ⟨f, g, l, h⟩ hc]

end Parser

namespace Grammar

/-- Over tokens in memory no grammar fails in front of its start. -/
theorem neverBack_run {τ : Type} [DecidableEq τ] [Token τ] (rules : String → Grammar τ)
    (bound : Nat) (g : Grammar τ) :
    Parser.NeverBack (run rules bound g : Parser (Run σ) (TokenCursor τ) τ Value) :=
  fun _ _ _ _ h => (reaches_of_ok h).offset_le

def wholeWord : Parser (Run Unit) (TokenCursor Char) Char Value :=
  run noRules 4 (attempt (keepRight (literal "ab") (charOf (.only 'c'))))

def letterPair : Parser (Run Unit) (TokenCursor Char) Char Value :=
  run noRules 4 (keepRight (charOf (.only 'a')) (charOf (.only 'z')))

/-- In `abx` the word fails at the `x`, and then the pair of letters at the `b`, after it consumed
the `a`. The list complains of the `b` alone. -/
theorem foldl_orElse_abx : ∃ f g l,
    Parser.CommitsAfter (TokenCursor.ofText "abx" 4) ⟨(), [], []⟩ [wholeWord, letterPair] f g l ∧
      Parser.choice [wholeWord, letterPair] (TokenCursor.ofText "abx" 4) ⟨(), [], []⟩ =
        .ok (.fail g, l) ∧
      [letterPair].foldl Parser.orElse wholeWord (TokenCursor.ofText "abx" 4) ⟨(), [], []⟩ =
        .ok (.fail ⟨f.error.merge g.error, g.cursor⟩, l) := by
  have hback : ∀ q ∈ [wholeWord, letterPair], Parser.NeverBack q := by
    simp only [List.mem_cons, List.not_mem_nil, or_false, forall_eq_or_imp, forall_eq]
    exact ⟨neverBack_run _ _ _, neverBack_run _ _ _⟩
  have hcommits : ∃ f g l, Parser.CommitsAfter (TokenCursor.ofText "abx" 4) ⟨(), [], []⟩
      [wholeWord, letterPair] f g l :=
    ⟨_, _, _, [wholeWord], letterPair, [], _, rfl, .cons rfl rfl .nil, rfl, rfl⟩
  obtain ⟨f, g, l, h⟩ := hcommits
  exact ⟨f, g, l, h, (Parser.foldl_orElse_eq_choice_iff hback _ _).2.1 f g l h⟩

/-- The joined parsers complain of the `x`, which is further on. -/
theorem choice_ne_foldl_orElse :
    Parser.choice [wholeWord, letterPair] (TokenCursor.ofText "abx" 4) ⟨(), [], []⟩ ≠
      [letterPair].foldl Parser.orElse wholeWord (TokenCursor.ofText "abx" 4) ⟨(), [], []⟩ := by
  have hchoice : ∃ f k,
      Parser.choice [wholeWord, letterPair] (TokenCursor.ofText "abx" 4) ⟨(), [], []⟩ =
        .ok (.fail f, k) ∧ f.error = .found ⟨1, 2, 1⟩ (.token 'b') (.label "'z'") :=
    ⟨_, _, rfl, rfl⟩
  have hfold : ∃ f k,
      [letterPair].foldl Parser.orElse wholeWord (TokenCursor.ofText "abx" 4) ⟨(), [], []⟩ =
        .ok (.fail f, k) ∧ f.error = .found ⟨1, 3, 2⟩ (.token 'x') (.label "'c'") :=
    ⟨_, _, rfl, rfl⟩
  obtain ⟨f, k, hchoice, hf⟩ := hchoice
  obtain ⟨g, l, hfold, hg⟩ := hfold
  rw [hchoice, hfold]
  intro h
  simp only [Except.ok.injEq, Prod.mk.injEq, Reply.fail.injEq] at h
  rw [h.1, hg] at hf
  simp [ParseError.found] at hf

end Grammar

end Descent
