import Descent.Parser.Choice
import Descent.Parser.Diagnosis
import Descent.Proofs.Furthest

/-! Relabelling commutes with joining. A new label changes neither where an error stands nor its
kind, so the same errors win before and after it. Any change of errors that commutes with joining
them can be moved from the whole of an alternative into its parts, and relabelling is one. -/
namespace Descent

namespace ParseError

variable {τ : Type} (label : String)

@[simp] theorem rank_relabel (e : ParseError τ) : (e.relabel label).rank = e.rank := by
  cases e <;> rfl

variable [DecidableEq τ]

/-- What is united lists the label once. -/
theorem relabel_unite {a b : ParseError τ} (h : a.isExplained = b.isExplained) :
    (a.unite b).relabel label = (a.relabel label).unite (b.relabel label) := by
  cases a with
  | mismatch p u x =>
    cases b with
    | mismatch q v y =>
      have hlabel : union [Symbol.label label] [.label label] = [Symbol.label (τ := τ) label] :=
        union_eq_left fun _ h => h
      exact congrArg (mismatch p (union u v)) hlabel.symm
    | explained => cases h
  | explained p n =>
    cases b with
    | mismatch => cases h
    | explained q n' =>
      have hlabel : union [Note.message label] [.message label] = [.message label] :=
        union_eq_left fun _ h => h
      exact congrArg (explained p) hlabel.symm

theorem relabel_merge (a b : ParseError τ) :
    (a.merge b).relabel label = (a.relabel label).merge (b.relabel label) := by
  rcases lt_trichotomy a.rank b.rank with h | h | h
  · rw [merge_of_lt h, merge_of_lt (by rwa [rank_relabel, rank_relabel])]
  · rw [merge_of_eq h, merge_of_eq (by rwa [rank_relabel, rank_relabel]),
      relabel_unite label (rank_eq_iff.1 h).2]
  · rw [merge_of_gt h, merge_of_gt (by rwa [rank_relabel, rank_relabel])]

end ParseError

namespace Failure

variable {C τ : Type}

def mapError (f : ParseError τ → ParseError τ) (g : Failure C τ) : Failure C τ :=
  ⟨f g.error, g.cursor⟩

variable [Cursor C τ]

theorem consumedSince_mapError (f : ParseError τ → ParseError τ) (g : Failure C τ) (c : C) :
    (g.mapError f).consumedSince c = g.consumedSince c := rfl

variable [DecidableEq τ] {f : ParseError τ → ParseError τ}

section Merge

variable (hf : ∀ a b, f (a.merge b) = (f a).merge (f b))
include hf

theorem mapError_merge (g h : Failure C τ) :
    (g.merge h).mapError f = (g.mapError f).merge (h.mapError f) :=
  congrArg (Failure.mk · _) (hf g.error h.error)

theorem mapError_after (g : Failure C τ) (failed : Option (Failure C τ)) :
    (g.after failed).mapError f = (g.mapError f).after (failed.map (Failure.mapError f)) := by
  cases failed with
  | none => rfl
  | some h => exact mapError_merge hf h g

end Merge

end Failure

@[simp] theorem Reply.mapFailure_fail {C τ α : Type} (f : Failure C τ → Failure C τ)
    (g : Failure C τ) : (Reply.fail g : Reply C τ α).mapFailure f = .fail (f g) := rfl

namespace Parser

variable {m : Type → Type} {C τ α : Type} [MonadRun m] [LawfulMonad m]

theorem mapError_apply (p : Parser m C τ α) (f : ParseError τ → ParseError τ) (c : C) :
    mapError p f c = Reply.mapFailure (Failure.mapError f) <$> p c := by
  rw [map_eq_pure_bind, mapError]
  congr 1
  funext r
  cases r <;> rfl

variable [Cursor C τ] [DecidableEq τ] {f : ParseError τ → ParseError τ}

/-- The second parser is run after a failure that consumed nothing, which its own failure is
merged into. -/
theorem orElse_apply (p q : Parser m C τ α) (c : C) :
    orElse p q c = p c >>= fun
      | .ok v d => return .ok v d
      | .fail g =>
        if g.consumedSince c then return .fail g else Reply.mapFailure g.merge <$> q c := by
  rw [orElse]
  congr 1
  funext r
  cases r with
  | ok v d => rfl
  | fail g =>
    dsimp only
    rw [map_eq_pure_bind]
    congr 2
    funext r
    cases r <;> rfl

section MapError

variable (hf : ∀ a b, f (a.merge b) = (f a).merge (f b))
include hf

/-- The errors of both parsers can be changed before they are merged. -/
theorem mapError_orElse (p q : Parser m C τ α) :
    mapError (orElse p q) f = orElse (mapError p f) (mapError q f) := by
  funext c
  rw [mapError_apply, orElse_apply, orElse_apply, mapError_apply, mapError_apply,
    map_eq_pure_bind, LawfulMonad.bind_assoc, bind_map_left]
  congr 1
  funext r
  rw [← map_eq_pure_bind]
  cases r with
  | ok v d => exact map_pure _ _
  | fail g =>
    -- a failure of the second parser is changed after the merge on the left, before it on the right
    have hmerge : Reply.mapFailure (Failure.mapError f) ∘ Reply.mapFailure g.merge =
        Reply.mapFailure (α := α) (g.mapError f).merge ∘ Reply.mapFailure (Failure.mapError f) := by
      funext r
      cases r with
      | ok v d => rfl
      | fail h => exact congrArg Reply.fail (Failure.mapError_merge hf g h)
    simp only [Reply.mapFailure_fail]
    by_cases hg : g.consumedSince c = true
    · rw [if_pos hg, if_pos ((g.consumedSince_mapError f c).trans hg)]
      exact map_pure _ _
    · rw [if_neg hg, if_neg (g.consumedSince_mapError f c ▸ hg), ← comp_map, ← comp_map, hmerge]

/-- So can the errors of a list of alternatives, and those of the alternatives that failed before
it. Where there are none of either, the list makes an error of its own. -/
theorem mapError_choiceAfter {failed : Option (Failure C τ)} {ps : List (Parser m C τ α)}
    (h : failed.isSome ∨ ps ≠ []) :
    mapError (choiceAfter failed ps) f =
      choiceAfter (failed.map (Failure.mapError f)) (ps.map (mapError · f)) := by
  funext c
  rw [mapError_apply]
  -- on the alternatives, with the errors of those before them changed as well
  induction ps generalizing failed with
  | nil =>
    obtain ⟨g, rfl⟩ := Option.isSome_iff_exists.1 (h.resolve_right (· rfl))
    exact map_pure _ _
  | cons p ps ih =>
    rw [List.map_cons, choiceAfter, choiceAfter, mapError_apply, map_eq_pure_bind,
      LawfulMonad.bind_assoc, bind_map_left]
    congr 1
    funext r
    rw [← map_eq_pure_bind]
    cases r with
    | ok v d => exact map_pure _ _
    | fail g =>
      simp only [Reply.mapFailure_fail]
      by_cases hg : g.consumedSince c = true
      · rw [if_pos hg, if_pos ((g.consumedSince_mapError f c).trans hg)]
        exact map_pure _ _
      · rw [if_neg hg, if_neg (g.consumedSince_mapError f c ▸ hg), ih (.inl rfl),
          Option.map_some, Failure.mapError_after hf]

end MapError

end Parser

/-- Relabelling commutes with joining: errors can be joined before or after they get a new label,
and so can the errors of two alternatives and of any list of alternatives, whichever of them
succeed, consume input or fail. A list needs an alternative, for otherwise its error is not one of
theirs. -/
theorem relabel_commutes {σ C τ α : Type} [Cursor C τ] [DecidableEq τ] (label : String) :
    (∀ a b : ParseError τ, (a.merge b).relabel label = (a.relabel label).merge (b.relabel label)) ∧
    (∀ p q : Parser (Run σ) C τ α, Parser.expecting (Parser.orElse p q) label =
      Parser.orElse (Parser.expecting p label) (Parser.expecting q label)) ∧
    ∀ (p : Parser (Run σ) C τ α) (ps : List (Parser (Run σ) C τ α)),
      Parser.expecting (Parser.choice (p :: ps)) label =
        Parser.choice ((p :: ps).map (Parser.expecting · label)) := by
  have hmerge := ParseError.relabel_merge (τ := τ) label
  refine ⟨hmerge, fun p q => ?_, fun p ps => ?_⟩
  · exact Parser.mapError_orElse hmerge p q
  · exact Parser.mapError_choiceAfter hmerge (.inr (List.cons_ne_nil p ps))

end Descent
