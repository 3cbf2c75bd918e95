import Descent.Proofs.Alternatives
import Descent.Proofs.Furthest

/-! Alternatives can be regrouped. Whether a failure is final is decided on one that may itself be
merged from two others. As long as no parser fails in front of its start, a merged failure has
consumed input exactly where the last of its parts has, so it does not matter how alternatives are
grouped, neither for what is read nor for what is reported. -/
namespace Descent

variable {σ C τ α : Type} [Cursor C τ] [DecidableEq τ]

/-- Of failures that got equally far the first keeps its cursor, so failures can be merged in any
grouping. -/
theorem Failure.merge_assoc (f g h : Failure C τ) : (f.merge g).merge h = f.merge (g.merge h) := by
  unfold Failure.merge
  dsimp only
  rw [ParseError.merge_assoc]
  congr 1
  by_cases hfg : Cursor.offset f.cursor < Cursor.offset g.cursor
  · by_cases hgh : Cursor.offset g.cursor < Cursor.offset h.cursor
    · rw [if_pos hfg, if_pos hgh, if_pos (Nat.lt_trans hfg hgh)]
    · rw [if_pos hfg, if_neg hgh, if_pos hfg]
  · by_cases hgh : Cursor.offset g.cursor < Cursor.offset h.cursor
    · rw [if_neg hfg, if_pos hgh]
    · have hfh : ¬Cursor.offset f.cursor < Cursor.offset h.cursor := by omega
      rw [if_neg hfg, if_neg hgh, if_neg hfg, if_neg hfh]

namespace Parser

variable {p q r : Parser (Run σ) C τ α} {c : C} {f g : Failure C τ} {j k : Journal σ}

/-- After a failure that consumed nothing the second parser is run, and its failure is merged into
the first one. -/
theorem orElse_eq_merged (hp : p c j = .ok (.fail f, k)) (hf : f.consumedSince c = false) :
    orElse p q c j = (q c k).map fun answer => (answer.1.mapFailure f.merge, answer.2) := by
  rw [orElse, Run.bind_of_ok hp]
  simp only [hf, Bool.false_eq_true, if_false]
  change (q c k >>= fun _ => _) = _
  rcases q c k with _ | ⟨⟨v, d⟩ | g, l⟩ <;> rfl

/-- A settled end is still settled when a failure that consumed nothing is merged into it. -/
theorem settled_orElse (hback : NeverBack q) (hp : p c j = .ok (.fail f, k))
    (hf : f.consumedSince c = false) (hq : Settled c (q c k)) : Settled c (orElse p q c j) := by
  rw [orElse_eq_merged hp hf]
  rcases hqk : q c k with _ | ⟨⟨v, d⟩ | g, l⟩
  · trivial
  · trivial
  · have hg : g.consumedSince c = true := by rwa [hqk] at hq
    change (f.merge g).consumedSince c = true
    rw [merge_committed hf hg (hback hqk)]
    exact hg

/-- Alternatives are associative, errors included: with whatever the three parsers end, and
whichever of their failures consumed input, both groupings give the same reply and report the same.
Only the parser in the middle has to fail nowhere in front of its start. -/
theorem orElse_assoc (p r : Parser (Run σ) C τ α) (hback : NeverBack q) :
    orElse (orElse p q) r = orElse p (orElse q r) := by
  funext c j
  rcases settled_or_passed c (p c j) with hp | ⟨f, k, hp, hf⟩
  · have hpq : orElse p q c j = p c j := orElse_of_settled hp
    rw [orElse_of_settled hp, orElse_of_settled (by rwa [hpq]), hpq]
  · rcases settled_or_passed c (q c k) with hq | ⟨g, l, hq, hg⟩
    · rw [orElse_of_settled (settled_orElse hback hp hf hq), orElse_eq_merged hp hf,
        orElse_eq_merged hp hf, orElse_of_settled hq]
    · -- all three are run, and both groupings merge the same failures in the same order
      have hpq : orElse p q c j = .ok (.fail (f.merge g), l) := orElse_of_fail hp hf hq
      rw [orElse_eq_merged hpq (merge_passed hf hg), orElse_eq_merged hp hf,
        orElse_eq_merged hq hg]
      rcases r c l with _ | ⟨⟨v, d⟩ | h, l⟩
      · rfl
      · rfl
      · change Except.ok (Reply.fail ((f.merge g).merge h), l) =
          .ok (.fail (f.merge (g.merge h)), l)
        rw [Failure.merge_assoc]

end Parser

namespace Grammar

/-- The middle one of these reads an `a` before it fails. -/
theorem orElse_assoc_letterPair :
    Parser.NeverBack letterPair ∧
      Parser.orElse (Parser.orElse wholeWord letterPair) (run noRules 4 (charOf .digit)) =
        Parser.orElse wholeWord (Parser.orElse letterPair (run noRules 4 (charOf .digit))) :=
  have hback : Parser.NeverBack letterPair := neverBack_run _ _ _
  ⟨hback, Parser.orElse_assoc _ _ hback⟩

end Grammar

end Descent
