import Descent.Proofs.Separated.Basic

/-! Items with a separator behind each. Such a list is a repetition of items with their separators,
but for one case: an item is read that consumes nothing, and its separator is missing in the same
place. The repetition takes that for its end. The list fails, although nothing has been consumed
since the last separator. -/
namespace Descent

namespace Parser

section Loops

variable {m : Type → Type} {C τ α β : Type} [MonadRun m]

theorem bind_map_apply (p : Parser m C τ β) (rest : Parser m C τ (List α)) (v : α) (c : C) :
    bind p (fun _ => map rest (v :: ·)) c = (do
      match ← p c with
      | .fail f => return .fail f
      | .ok _ next => return (← rest next).map (v :: ·)) := by
  apply congrArg (p c >>= ·)
  funext r
  cases r with
  | ok w next => exact map_apply rest (v :: ·) next
  | fail f => rfl

variable [Cursor C τ] (item : Parser m C τ α) (separator : Parser m C τ β) (n : Nat)

theorem endBy_false_eq : endBy false item separator (n + 1) =
    emptyUnless item fun v =>
      bind separator fun _ => map (endBy false item separator n) (v :: ·) := by
  funext c
  apply congrArg (item c >>= ·)
  funext r
  cases r with
  | ok v next => exact (bind_map_apply separator _ v next).symm
  | fail f => simp only [Bool.or_false]

/-- At least one item is a terminated item, and then as many as there are. -/
theorem endBy_true_eq [LawfulMonad m] : endBy true item separator (n + 1) =
    bind (keepLeft item separator) fun v => map (endBy false item separator n) (v :: ·) := by
  funext c
  simp only [keepLeft, bind_bind, bind_map]
  apply congrArg (item c >>= ·)
  funext r
  cases r with
  | ok v next => exact (bind_map_apply separator _ v next).symm
  | fail f => simp only [Bool.or_true, if_true]

end Loops

variable {σ C τ α β : Type} {item : Parser (Run σ) C τ α} {separator : Parser (Run σ) C τ β}
  {c d e : C} {v : α} {vs : List α} {w : β} {f : Failure C τ} {n : Nat} {j k l m : Journal σ}

theorem keepLeft_of_ok (hv : item c j = .ok (.ok v d, k)) (hw : separator d k = .ok (.ok w e, l)) :
    keepLeft item separator c j = .ok (.ok v e, l) :=
  (bind_of_ok hv).trans (map_eq_ok.2 ⟨w, hw, rfl⟩)

theorem keepLeft_of_fail (hv : item c j = .ok (.ok v d, k))
    (hf : separator d k = .ok (.fail f, m)) : keepLeft item separator c j = .ok (.fail f, m) :=
  (bind_of_ok hv).trans (bind_of_fail hf)

variable [Cursor C τ]

section Rounds

/-- A terminated item is a round of both loops. -/
theorem endBy_of_ok (h : keepLeft item separator c j = .ok (.ok v e, l)) :
    endBy false item separator (n + 1) c j = map (endBy false item separator n) (v :: ·) e l := by
  obtain ⟨_, d, k, hv, hmap⟩ := bind_eq_ok.1 h
  obtain ⟨w, hw, rfl⟩ := map_eq_ok.1 hmap
  rw [endBy_false_eq, emptyUnless_of_ok hv, bind_of_ok hw]

theorem many_of_ok {p : Parser (Run σ) C τ α} (h : p c j = .ok (.ok v e, l)) :
    many (n + 1) p c j = map (many n p) (v :: ·) e l := by
  rw [many, repeated_eq_emptyUnless, emptyUnless_of_ok h]
  rfl

theorem many_of_fail {p : Parser (Run σ) C τ α} (h : p c j = .ok (.fail f, m)) :
    many (n + 1) p c j = .ok (if f.consumedSince c then .fail f else .ok [] c, m) := by
  rw [many, repeated_eq_emptyUnless, emptyUnless_of_fail h]

/-- A separator that is missing is a failure, whatever has been consumed. -/
theorem endBy_of_unterminated (hv : item c j = .ok (.ok v d, k))
    (hf : separator d k = .ok (.fail f, m)) :
    endBy false item separator (n + 1) c j = .ok (.fail f, m) := by
  rw [endBy_false_eq, emptyUnless_of_ok hv, bind_of_fail hf]

/-- Unless an item that consumes nothing lacks its separator, the two loops do the same in a round
and differ only in what is left of them. -/
theorem endBy_round (h : ¬ReturnsTo item (fun _ => separator) c j)
    (hrest : ∀ v e l, keepLeft item separator c j = .ok (.ok v e, l) →
      endBy false item separator n e l = many n (keepLeft item separator) e l) :
    endBy false item separator (n + 1) c j = many (n + 1) (keepLeft item separator) c j := by
  rcases hv : item c j with halt | ⟨⟨v, d⟩ | f, k⟩
  · have hpair : keepLeft item separator c j = .error halt := Run.bind_of_error hv
    rw [endBy_false_eq, many, repeated_eq_emptyUnless]
    exact (Run.bind_of_error hv).trans (Run.bind_of_error hpair).symm
  · rcases hw : separator d k with halt | ⟨⟨w, e⟩ | f, l⟩
    · have hpair : keepLeft item separator c j = .error halt :=
        (bind_of_ok hv).trans (Run.bind_of_error hw)
      rw [endBy_false_eq, emptyUnless_of_ok hv, many, repeated_eq_emptyUnless]
      exact (Run.bind_of_error hw).trans (Run.bind_of_error hpair).symm
    · have hpair := keepLeft_of_ok hv hw
      rw [endBy_of_ok hpair, many_of_ok hpair]
      exact Run.bind_congr (hrest v e l hpair) _
    · have hcommit : f.consumedSince c = true := by
        rw [returnsTo_iff hv] at h
        simpa using fun hback => h ⟨f, l, hw, hback⟩
      rw [endBy_of_unterminated hv hw, many_of_fail (keepLeft_of_fail hv hw), if_pos hcommit]
  · have hpair : keepLeft item separator c j = .ok (.fail f, k) := bind_of_fail hv
    rw [endBy_false_eq, emptyUnless_of_fail hv, many_of_fail hpair]

theorem endBy_eq_many (h : ∀ vs d k, vs.length < n →
      Successes false (keepLeft item separator) c j vs d k →
      ¬ReturnsTo item (fun _ => separator) d k) :
    endBy false item separator n c j = many n (keepLeft item separator) c j := by
  induction n generalizing c j with
  | zero => rfl
  | succ n ih =>
    apply endBy_round
    · exact h [] c j (Nat.succ_pos n) .nil
    · intro v e l hv
      apply ih
      intro vs d k hn hvs
      exact h (v :: vs) d k (Nat.succ_lt_succ hn) (.cons ⟨hv, nofun⟩ hvs)

end Rounds

/-- Behind terminated items there is one more that consumes nothing and lacks its separator. The
repetition ends there, and the list fails. -/
theorem Successes.endBy_differs (h : Successes false (keepLeft item separator) c j vs d k)
    (hn : vs.length < n) (hv : item d k = .ok (.ok v e, l)) (hf : separator e l = .ok (.fail f, m))
    (hback : f.consumedSince d = false) :
    endBy false item separator n c j = .ok (.fail f, m) ∧
      many n (keepLeft item separator) c j = .ok (.ok vs d, m) := by
  constructor
  · obtain ⟨n, rfl⟩ := Nat.exists_eq_add_of_lt hn
    exact h.loop_eq endBy_of_ok (endBy_of_unterminated hv hf)
  · exact repeated_eq_ok_iff.2 ⟨hn, k, f, h, keepLeft_of_fail hv hf, hback⟩

/-- The same with at least one item. -/
theorem Successes.endBy_true_differs
    (h : Successes false (keepLeft item separator) c j (v :: vs) d k) (hn : vs.length < n) {u : α}
    (hu : item d k = .ok (.ok u e, l)) (hf : separator e l = .ok (.fail f, m))
    (hback : f.consumedSince d = false) :
    endBy true item separator (n + 1) c j = .ok (.fail f, m) ∧
      many1 n (keepLeft item separator) c j = .ok (.ok (v :: vs) d, m) := by
  obtain ⟨a, i, hfirst, hvs⟩ := rounds_cons_iff.1 h
  obtain ⟨hlist, hmany⟩ := Successes.endBy_differs hvs hn hu hf hback
  constructor
  · rw [endBy_true_eq, bind_of_ok hfirst.1]
    exact map_eq_fail.2 hlist
  · exact (bind_of_ok hfirst.1).trans (map_eq_ok.2 ⟨vs, hmany, rfl⟩)

section Agreement

/-- At least one item is read alike if those behind the first are. -/
theorem endBy_true_eq_many1 (h : ∀ v vs d k, vs.length < n →
      Successes false (keepLeft item separator) c j (v :: vs) d k →
      ¬ReturnsTo item (fun _ => separator) d k) :
    endBy true item separator (n + 1) c j = many1 n (keepLeft item separator) c j := by
  rw [endBy_true_eq]
  apply bind_congr_of_ok
  intro v e l hv
  have hrest : endBy false item separator n e l = many n (keepLeft item separator) e l := by
    apply endBy_eq_many
    intro vs d k hn hvs
    exact h v vs d k hn (.cons ⟨hv, nofun⟩ hvs)
  exact Run.bind_congr hrest _

/-- Items that always consume something are read as by a repetition. -/
theorem endBy_eq_many_of_consuming (hseparator : Forward separator)
    (hitem : ∀ ⦃c : C⦄ ⦃j k : Journal σ⦄ ⦃v : α⦄ ⦃d : C⦄, item c j = .ok (.ok v d, k) →
      Cursor.offset c < Cursor.offset d) (n : Nat) :
    endBy false item separator n = many n (keepLeft item separator) ∧
      endBy true item separator (n + 1) = many1 n (keepLeft item separator) := by
  have hstays (d : C) (k : Journal σ) : ¬ReturnsTo item (fun _ => separator) d k := by
    intro ⟨v, e, l, f, m, hv, hf, hback⟩
    have hlt : Cursor.offset d < Cursor.offset f.cursor :=
      Nat.lt_of_lt_of_le (hitem hv) (hseparator hf)
    rw [consumedSince_of_lt hlt] at hback
    cases hback
  constructor
  · funext c j
    exact endBy_eq_many fun _ d k _ _ => hstays d k
  · funext c j
    exact endBy_true_eq_many1 fun _ _ d k _ _ => hstays d k

end Agreement

/-- When a list of terminated items is the repetition of its items with their separators. The two
give the same reply, errors and reports included, if and only if among the items that are read in
turn there is none that lacks its separator although nothing has been consumed since it began; with
at least one item the first may be such an item. Where there is one, the list fails with what the
separator had to say, and the repetition has the items before it. `n` bounds how many items are
tried, behind the first one where there has to be one. -/
theorem endBy_eq_many_iff (item : Parser (Run σ) C τ α) (separator : Parser (Run σ) C τ β) (n : Nat)
    (c : C) (j : Journal σ) :
    (endBy false item separator n c j = many n (keepLeft item separator) c j ↔
      ∀ vs d k, vs.length < n → Successes false (keepLeft item separator) c j vs d k →
        ¬ReturnsTo item (fun _ => separator) d k) ∧
    (endBy true item separator (n + 1) c j = many1 n (keepLeft item separator) c j ↔
      ∀ v vs d k, vs.length < n → Successes false (keepLeft item separator) c j (v :: vs) d k →
        ¬ReturnsTo item (fun _ => separator) d k) ∧
    (∀ vs d k u e l f m, vs.length < n → Successes false (keepLeft item separator) c j vs d k →
      item d k = .ok (.ok u e, l) → separator e l = .ok (.fail f, m) → f.consumedSince d = false →
      endBy false item separator n c j = .ok (.fail f, m) ∧
        many n (keepLeft item separator) c j = .ok (.ok vs d, m)) ∧
    ∀ v vs d k u e l f m, vs.length < n →
      Successes false (keepLeft item separator) c j (v :: vs) d k →
      item d k = .ok (.ok u e, l) → separator e l = .ok (.fail f, m) → f.consumedSince d = false →
      endBy true item separator (n + 1) c j = .ok (.fail f, m) ∧
        many1 n (keepLeft item separator) c j = .ok (.ok (v :: vs) d, m) := by
  refine ⟨⟨fun heq vs d k hn hvs hreturns => ?_, endBy_eq_many⟩,
    ⟨fun heq v vs d k hn hvs hreturns => ?_, endBy_true_eq_many1⟩,
    fun vs d k u e l f m hn hvs hu hf hback => hvs.endBy_differs hn hu hf hback,
    fun v vs d k u e l f m hn hvs hu hf hback => hvs.endBy_true_differs hn hu hf hback⟩
  · obtain ⟨u, e, l, f, m, hu, hf, hback⟩ := hreturns
    obtain ⟨hlist, hmany⟩ := hvs.endBy_differs hn hu hf hback
    rw [hlist, hmany] at heq
    cases heq
  · obtain ⟨u, e, l, f, m, hu, hf, hback⟩ := hreturns
    obtain ⟨hlist, hmany⟩ := hvs.endBy_true_differs hn hu hf hback
    rw [hlist, hmany] at heq
    cases heq

end Parser

namespace Grammar

def field : Parser (Run Unit) (TokenCursor Char) Char Value := run noRules 8 (optional natural)

def semicolon : Parser (Run Unit) (TokenCursor Char) Char Value :=
  run noRules 8 (charOf (.only ';'))

end Grammar

namespace Parser

open Grammar (field semicolon)

/-- Behind the last semicolon of `1;2;` there is one more field that is empty, and no semicolon. -/
theorem endBy_eq_many_iff_fields : ∃ f m,
    endBy false field semicolon 8 (TokenCursor.ofText "1;2;" 4) ⟨(), [], []⟩ = .ok (.fail f, m) ∧
      many 8 (keepLeft field semicolon) (TokenCursor.ofText "1;2;" 4) ⟨(), [], []⟩ =
        .ok (.ok [.present (.natural 1), .present (.natural 2)]
          ((TokenCursor.ofText "1;2;" 4).forward 4), m) := by
  have hfields : Successes false (keepLeft field semicolon) (TokenCursor.ofText "1;2;" 4)
      ⟨(), [], []⟩ [.present (.natural 1), .present (.natural 2)]
      ((TokenCursor.ofText "1;2;" 4).forward 4) ⟨(), [], []⟩ :=
    .cons ⟨rfl, nofun⟩ (.cons ⟨rfl, nofun⟩ .nil)
  have hempty : field ((TokenCursor.ofText "1;2;" 4).forward 4) ⟨(), [], []⟩ =
      .ok (.ok .absent ((TokenCursor.ofText "1;2;" 4).forward 4), ⟨(), [], []⟩) := rfl
  have hmissing : ∃ f m, semicolon ((TokenCursor.ofText "1;2;" 4).forward 4) ⟨(), [], []⟩ =
      .ok (.fail f, m) ∧
        f.consumedSince ((TokenCursor.ofText "1;2;" 4).forward 4) = false :=
    ⟨_, _, rfl, rfl⟩
  obtain ⟨f, m, hf, hback⟩ := hmissing
  obtain ⟨-, -, hdiffers, -⟩ := endBy_eq_many_iff field semicolon 8 (TokenCursor.ofText "1;2;" 4)
    ⟨(), [], []⟩
  exact ⟨f, m, hdiffers _ _ _ _ _ _ f m (by decide) hfields hempty hf hback⟩

/-- On an empty text the repetition reads no fields, and the list fails. -/
theorem endBy_ne_many :
    endBy false field semicolon 8 (TokenCursor.ofText "" 4) ⟨(), [], []⟩ ≠
      many 8 (keepLeft field semicolon) (TokenCursor.ofText "" 4) ⟨(), [], []⟩ :=
  ne_of_fail_of_ok ⟨_, _, rfl⟩ ⟨_, _, _, rfl⟩

end Parser

end Descent
