import Descent.Proofs.Separated.Between

/-! Items with separators between them, and possibly one more behind the last. Such a list is an
item, and then a separator and such a list or nothing. It has the items of a list without a last
separator wherever that has any, since both run the same parsers in the same order and differ only
in how they judge an item that is missed behind a separator. -/
namespace Descent

namespace Parser

section Loops

variable {m : Type → Type} {C τ α β : Type} [MonadRun m] [LawfulMonad m] [Cursor C τ]
  (item : Parser m C τ α) (separator : Parser m C τ β) (n : Nat)

def sepEndRest : Parser m C τ (List α) :=
  emptyUnless separator fun _ => sepEndBy false item separator n

theorem map_sepEndRest (v : α) (c : C) : map (sepEndRest item separator n) (v :: ·) c = (do
    match ← separator c with
    | .fail f => if f.consumedSince c then return .fail f else return .ok [v] c
    | .ok _ next => return (← sepEndBy false item separator n next).map (v :: ·)) := by
  rw [map_apply, sepEndRest, emptyUnless, bind_assoc]
  apply congrArg (separator c >>= ·)
  funext r
  cases r with
  | ok w next => rfl
  | fail f =>
    dsimp only
    split
    · simp only [LawfulMonad.pure_bind]
      rfl
    · simp only [LawfulMonad.pure_bind]
      rfl

theorem sepEndBy_true_eq : sepEndBy true item separator (n + 1) =
    bind item fun v => map (sepEndRest item separator n) (v :: ·) := by
  funext c
  apply congrArg (item c >>= ·)
  funext r
  cases r with
  | ok v next => exact (map_sepEndRest item separator n v next).symm
  | fail f => simp only [Bool.or_true, if_true]

theorem sepEndBy_false_eq : sepEndBy false item separator (n + 1) =
    emptyUnless item fun v => map (sepEndRest item separator n) (v :: ·) := by
  funext c
  apply congrArg (item c >>= ·)
  funext r
  cases r with
  | ok v next => exact (map_sepEndRest item separator n v next).symm
  | fail f => simp only [Bool.or_false]

end Loops

variable {σ C τ α β : Type} [Cursor C τ] {item : Parser (Run σ) C τ α}
  {separator : Parser (Run σ) C τ β} {c d e : C} {v : α} {us vs : List α} {f : Failure C τ}
  {n : Nat} {i j k l m : Journal σ}

/-- How a list with an optional last separator ends behind its last item: no separator is there,
or there is one and no item behind it, and what is missing is missed where it would begin. -/
inductive EndsBehind (item : Parser (Run σ) C τ α) (separator : Parser (Run σ) C τ β) (d : C)
    (k : Journal σ) : C → Journal σ → Prop where
  | bare {f : Failure C τ} {m : Journal σ} (hf : separator d k = .ok (.fail f, m))
      (hback : f.consumedSince d = false) : EndsBehind item separator d k d m
  | trailing {w : β} {e : C} {l : Journal σ} {g : Failure C τ} {m : Journal σ}
      (hw : separator d k = .ok (.ok w e, l)) (hg : item e l = .ok (.fail g, m))
      (hback : g.consumedSince e = false) : EndsBehind item separator d k e m

section Rest

/-- A separator and an item are a round of the list. -/
theorem sepEndRest_of_ok (h : keepRight separator item c j = .ok (.ok v d, k)) :
    sepEndRest item separator (n + 1) c j = map (sepEndRest item separator n) (v :: ·) d k := by
  obtain ⟨w, e, l, hw, hv⟩ := bind_eq_ok.1 h
  rw [sepEndRest, emptyUnless_of_ok hw, sepEndBy_false_eq, emptyUnless_of_ok hv]

theorem EndsBehind.sepEndRest_eq (h : EndsBehind item separator c j e m) (n : Nat) :
    sepEndRest item separator (n + 1) c j = .ok (.ok [] e, m) := by
  rw [sepEndRest]
  cases h with
  | bare hf hback =>
    rw [emptyUnless_of_fail hf, hback]
    rfl
  | trailing hw hg hback =>
    rw [emptyUnless_of_ok hw, sepEndBy_false_eq, emptyUnless_of_fail hg, hback]
    rfl

/-- What is read behind a first item is some more of them, each behind a separator, and the end of
the list. -/
theorem ends_of_sepEndRest (h : sepEndRest item separator n c j = .ok (.ok us e, m)) :
    ∃ d k, Successes false (keepRight separator item) c j us d k ∧
      EndsBehind item separator d k e m := by
  -- the list may end in front of a separator and in front of an item, so a round is looked at twice
  induction n generalizing c j us with
  | zero =>
    obtain ⟨_, _, _, -, hmore⟩ | ⟨f, hf, hback, rfl, rfl⟩ := emptyUnless_eq_ok.1 h
    · cases hmore
    · exact ⟨_, _, .nil, .bare hf hback⟩
  | succ n ih =>
    obtain ⟨w, d, i, hw, hmore⟩ | ⟨f, hf, hback, rfl, rfl⟩ := emptyUnless_eq_ok.1 h
    · rw [sepEndBy_false_eq, emptyUnless_eq_ok] at hmore
      obtain ⟨v, a, k, hv, hrest⟩ | ⟨g, hg, hback, rfl, rfl⟩ := hmore
      · obtain ⟨vs, hvs, rfl⟩ := map_eq_ok.1 hrest
        obtain ⟨b, l, hitems, hends⟩ := ih hvs
        have hround : keepRight separator item c j = .ok (.ok v a, k) := (bind_of_ok hw).trans hv
        exact ⟨b, l, .cons ⟨hround, nofun⟩ hitems, hends⟩
      · exact ⟨_, _, .nil, .trailing hw hg hback⟩
    · exact ⟨_, _, .nil, .bare hf hback⟩

theorem Forward.sepEndBy (hitem : Forward item) (hseparator : Forward separator) (n : Nat) :
    FailsFurther (sepEndBy false item separator n) := by
  induction n with
  | zero => nofun
  | succ n ih =>
    rw [sepEndBy_false_eq]
    apply hitem.emptyUnless
    intro v
    exact (hseparator.emptyUnless fun _ => ih).map _

end Rest

section Refused

/-- Where a repetition of separators and items ends, the list with an optional last separator ends
as well, and in the same place. -/
theorem endsBehind_of_refused (hitem : Forward item) (hseparator : Forward separator)
    (h : keepRight separator item d k = .ok (.fail f, m)) (hback : f.consumedSince d = false) :
    ∃ e, EndsBehind item separator d k e m ∧ Cursor.same e d = true := by
  obtain ⟨_, hf, ⟨⟩⟩ | ⟨w, e, l, hw, hf⟩ := bind_ends_iff.1 h
  · exact ⟨d, .bare hf hback, by simp [Cursor.same]⟩
  · -- the item fails back at `d`, so the separator in front of it has consumed nothing
    have hle : Cursor.offset d ≤ Cursor.offset e := hseparator hw
    have hge : Cursor.offset e ≤ Cursor.offset f.cursor := hitem hf
    have hstays : Cursor.offset f.cursor = Cursor.offset d := f.offset_eq hback
    have heq : Cursor.offset e = Cursor.offset d := by omega
    refine ⟨e, .trailing hw hf ?_, by simp [Cursor.same, heq]⟩
    simp [Failure.consumedSince, Cursor.same, heq, hstays]

/-- A repetition that can end does not fail, whatever its bound. -/
theorem many_ne_fail {p : Parser (Run σ) C τ α} (h : Successes false p c j vs d k)
    (hp : p d k = .ok (.fail f, m)) (hback : f.consumedSince d = false) (g : Failure C τ) :
    many n p c j ≠ .ok (.fail g, l) := by
  intro hfail
  obtain ⟨us, e, i, hn, hus, hg, hcommit⟩ := many_eq_fail_iff.1 hfail
  -- under a bound that leaves room for both, the repetition would end and also fail
  have hends : many (vs.length + 1 + n) p c j = .ok (.ok vs d, m) :=
    repeated_eq_ok_iff.2 ⟨by omega, k, f, h, hp, hback⟩
  have hfails : many (vs.length + 1 + n) p c j = .ok (.fail g, l) :=
    many_eq_fail_iff.2 ⟨us, e, i, by omega, hus, hg, hcommit⟩
  cases hends.symm.trans hfails

/-- Where the repetition fails and the list with an optional last separator ends, that separator
is there and has consumed something. -/
theorem EndsBehind.trailing_of_fail (h : EndsBehind item separator d k e m)
    (hvs : Successes false (keepRight separator item) c j vs d k)
    (hfail : many n (keepRight separator item) c j = .ok (.fail f, l)) :
    ∃ w i g, separator d k = .ok (.ok w e, i) ∧ Cursor.same e d = false ∧
      item e i = .ok (.fail g, m) ∧ g.consumedSince e = false := by
  cases h with
  | bare hg hback =>
    have hpair := (bind_of_fail hg : keepRight separator item _ _ = _)
    exact absurd hfail (many_ne_fail hvs hpair hback f)
  | @trailing w e i g _ hw hg hback =>
    refine ⟨w, i, g, hw, ?_, hg, hback⟩
    by_contra hmoved
    have hpair : keepRight separator item d k = .ok (.fail g, m) := (bind_of_ok hw).trans hg
    have hstays : g.consumedSince d = false := by
      simpa [Failure.consumedSince, Cursor.same, g.offset_eq hback] using hmoved
    exact absurd hfail (many_ne_fail hvs hpair hstays f)

end Refused

section Agreement

theorem sepEndBy_of_sepBy (hitem : Forward item) (hseparator : Forward separator)
    (h : sepBy false item separator n c j = .ok (.ok vs d, m)) :
    ∃ e, sepEndBy false item separator (n + 1) c j = .ok (.ok vs e, m) ∧
      Cursor.same e d = true := by
  rw [sepBy_false_eq, emptyUnless_eq_ok] at h
  obtain ⟨v, a, i, hv, hmore⟩ | ⟨f, hf, hback, rfl, rfl⟩ := h
  · obtain ⟨us, hmany, rfl⟩ := map_eq_ok.1 hmore
    obtain ⟨hn, k, f, hus, hf, hback⟩ := repeated_eq_ok_iff.1 hmany
    obtain ⟨e, hends, hsame⟩ := endsBehind_of_refused hitem hseparator hf hback
    refine ⟨e, ?_, hsame⟩
    obtain ⟨n, rfl⟩ := Nat.exists_eq_add_of_lt hn
    have hrest := hus.loop_eq sepEndRest_of_ok (hends.sepEndRest_eq n)
    rw [sepEndBy_false_eq, emptyUnless_of_ok hv]
    exact map_eq_ok.2 ⟨us, by simpa [Reply.map, Nat.add_assoc] using hrest, rfl⟩
  · refine ⟨d, ?_, by simp [Cursor.same]⟩
    rw [sepEndBy_false_eq, emptyUnless_of_fail hf, hback]
    rfl

theorem trailing_of_sepBy_fail {n' : Nat}
    (h : sepEndBy false item separator n c j = .ok (.ok us e, m))
    (hfail : sepBy false item separator n' c j = .ok (.fail f, l)) :
    ∃ v vs a i d k w b g, us = v :: vs ∧ item c j = .ok (.ok v a, i) ∧
      Successes false (keepRight separator item) a i vs d k ∧
      separator d k = .ok (.ok w e, b) ∧ Cursor.same e d = false ∧
      item e b = .ok (.fail g, m) ∧ g.consumedSince e = false := by
  cases n with
  | zero => cases h
  | succ n =>
    rw [sepEndBy_false_eq, emptyUnless_eq_ok] at h
    rw [sepBy_false_eq, emptyUnless_eq_fail] at hfail
    obtain ⟨v, a, i, hv, hmore⟩ | ⟨g, hg, hback, rfl, rfl⟩ := h
    · obtain ⟨vs, hrest, rfl⟩ := map_eq_ok.1 hmore
      obtain ⟨d, k, hvs, hends⟩ := ends_of_sepEndRest hrest
      obtain ⟨v', a', i', hv', hmany⟩ | ⟨hf, -⟩ := hfail
      · cases hv.symm.trans hv'
        obtain ⟨w, b, g, hlast⟩ := hends.trailing_of_fail hvs (map_eq_fail.1 hmany)
        exact ⟨v, vs, a, i, d, k, w, b, g, rfl, hv, hvs, hlast⟩
      · cases hv.symm.trans hf
    · obtain ⟨v, a, i, hv, -⟩ | ⟨hf, hcommit⟩ := hfail
      · cases hg.symm.trans hv
      · cases hg.symm.trans hf
        cases hback.symm.trans hcommit

end Agreement

variable [DecidableEq τ]

/-- Where an item is followed by a separator and what is read behind that fails back, the list
fails, and with nothing as an alternative it would end. -/
theorem sepEndBy_true_eq_iff : sepEndBy true item separator (n + 1) c j =
      bind item (fun v => map
        (orElse (keepRight separator (sepEndBy false item separator n)) (pure [])) (v :: ·)) c j ↔
    ∀ v d k, item c j = .ok (.ok v d, k) →
      ¬ReturnsTo separator (fun _ => sepEndBy false item separator n) d k := by
  rw [sepEndBy_true_eq]
  constructor
  · intro heq v d k hv hreturns
    rw [bind_of_ok hv, bind_of_ok hv] at heq
    obtain ⟨w, e, l, f, m, hw, hf, hback⟩ := hreturns
    have hrest : sepEndRest item separator n d k = .ok (.fail f, m) :=
      (emptyUnless_of_ok hw).trans hf
    have hpair : keepRight separator (sepEndBy false item separator n) d k = .ok (.fail f, m) :=
      (bind_of_ok hw).trans hf
    have hends : orElse (keepRight separator (sepEndBy false item separator n)) (pure []) d k =
        .ok (.ok [] d, m) := by
      rw [orElse_pure_of_fail hpair, hback]
      rfl
    rw [map_eq_fail.2 hrest, map_ends_iff.2 ⟨_, hends, rfl⟩] at heq
    cases heq
  · intro h
    apply bind_congr_of_ok
    intro v d k hv
    exact Run.bind_congr (emptyUnless_eq_iff.2 (h v d k hv)) _

theorem sepEndBy_false_eq_iff : sepEndBy false item separator (n + 1) c j =
      orElse (sepEndBy true item separator (n + 1)) (pure []) c j ↔
    ¬ReturnsTo item (fun _ => sepEndRest item separator n) c j := by
  rw [sepEndBy_false_eq, sepEndBy_true_eq, emptyUnless_eq_iff, not_iff_not]
  exact returnsTo_map

/-- A list with an optional last separator in other words. With one item or more it is an item, and
then a separator and a list with none or more, or nothing; with none or more it is such a list, or
nothing. Each law holds just where what is read behind the separator, or the item, does not fail
back where that began, and so everywhere for parsers that never go back, as no grammar does. Where a
list without a last separator succeeds, this one has the same items and ends in the same place.
Where only this one succeeds, it ends right behind a separator that has consumed something, at which
the item fails and has consumed nothing. `n` bounds how many items are tried behind the first. -/
theorem sepEndBy_composes (item : Parser (Run σ) C τ α) (separator : Parser (Run σ) C τ β)
    (n : Nat) :
    (∀ c j, sepEndBy true item separator (n + 1) c j =
        bind item (fun v => map
          (orElse (keepRight separator (sepEndBy false item separator n)) (pure [])) (v :: ·)) c j ↔
      ∀ v d k, item c j = .ok (.ok v d, k) →
        ¬ReturnsTo separator (fun _ => sepEndBy false item separator n) d k) ∧
    (∀ c j, sepEndBy false item separator (n + 1) c j =
        orElse (sepEndBy true item separator (n + 1)) (pure []) c j ↔
      ¬ReturnsTo item (fun _ => sepEndRest item separator n) c j) ∧
    (Forward item → Forward separator →
      sepEndBy true item separator (n + 1) = bind item (fun v => map
        (orElse (keepRight separator (sepEndBy false item separator n)) (pure [])) (v :: ·)) ∧
      sepEndBy false item separator (n + 1) =
        orElse (sepEndBy true item separator (n + 1)) (pure []) ∧
      ∀ c j vs d m, sepBy false item separator n c j = .ok (.ok vs d, m) →
        ∃ e, sepEndBy false item separator (n + 1) c j = .ok (.ok vs e, m) ∧
          Cursor.same e d = true) ∧
    ∀ n' c j us e m f l, sepEndBy false item separator n c j = .ok (.ok us e, m) →
      sepBy false item separator n' c j = .ok (.fail f, l) →
      ∃ v vs a i d k w b g, us = v :: vs ∧ item c j = .ok (.ok v a, i) ∧
        Successes false (keepRight separator item) a i vs d k ∧
        separator d k = .ok (.ok w e, b) ∧ Cursor.same e d = false ∧
        item e b = .ok (.fail g, m) ∧ g.consumedSince e = false := by
  refine ⟨fun c j => sepEndBy_true_eq_iff, fun c j => sepEndBy_false_eq_iff,
    fun hitem hseparator => ⟨?_, ?_, fun c j vs d m => sepEndBy_of_sepBy hitem hseparator⟩,
    fun n' c j us e m f l => trailing_of_sepBy_fail⟩
  · have hrest : sepEndRest item separator n =
        orElse (keepRight separator (sepEndBy false item separator n)) (pure []) :=
      hseparator.emptyUnless_eq fun _ => hitem.sepEndBy hseparator n
    rw [sepEndBy_true_eq, hrest]
  · rw [sepEndBy_false_eq, sepEndBy_true_eq]
    apply hitem.emptyUnless_eq
    intro v
    exact (hseparator.emptyUnless fun _ => hitem.sepEndBy hseparator n).map _

open Grammar (comma letterA) in
/-- In `a,a,` the list with an optional last separator ends behind the second comma, where the
letter is missing. The list without one fails there. -/
theorem sepEndBy_composes_trailingComma : Forward letterA ∧ Forward comma ∧
    sepEndBy false letterA comma 8 = orElse (sepEndBy true letterA comma 8) (pure []) ∧
    ∃ d k w b g m, comma d k =
        .ok (.ok w ((TokenCursor.ofText "a,a," 4).forward 4), b) ∧
      Cursor.same ((TokenCursor.ofText "a,a," 4).forward 4) d = false ∧
      letterA ((TokenCursor.ofText "a,a," 4).forward 4) b = .ok (.fail g, m) ∧
      g.consumedSince ((TokenCursor.ofText "a,a," 4).forward 4) = false := by
  have hitem : Forward letterA := Grammar.forward_run _ _ _
  have hseparator : Forward comma := Grammar.forward_run _ _ _
  obtain ⟨-, -, hforward, htrailing⟩ := sepEndBy_composes letterA comma 7
  have hends : ∃ m, sepEndBy false letterA comma 7 (TokenCursor.ofText "a,a," 4) ⟨(), [], []⟩ =
      .ok (.ok [.char 'a', .char 'a'] ((TokenCursor.ofText "a,a," 4).forward 4), m) :=
    ⟨_, rfl⟩
  have hfails : ∃ f l, sepBy false letterA comma 7 (TokenCursor.ofText "a,a," 4) ⟨(), [], []⟩ =
      .ok (.fail f, l) :=
    ⟨_, _, rfl⟩
  obtain ⟨m, hends⟩ := hends
  obtain ⟨f, l, hfails⟩ := hfails
  obtain ⟨v, vs, a, i, d, k, w, b, g, -, -, -, hw, hmoved, hg, hback⟩ :=
    htrailing 7 _ _ _ _ m f l hends hfails
  obtain ⟨-, hlaw, -⟩ := hforward hitem hseparator
  exact ⟨hitem, hseparator, hlaw, d, k, w, b, g, m, hw, hmoved, hg, hback⟩

open Grammar (comma) in
/-- Both laws fail for items that go back, the first where an item fails where the separator in
front of it began, and the second where it fails at the start; and then a list without a last
separator may succeed alone. Where a read fails and is made again, the second law fails as well. -/
theorem sepEndBy_ne_orElse :
    sepEndBy true (firstOnly 1) comma 8 (TokenCursor.ofText "a," 4) ⟨(), [], []⟩ ≠
        bind (firstOnly 1) (fun v => map
          (orElse (keepRight comma (sepEndBy false (firstOnly 1) comma 7)) (pure [])) (v :: ·))
          (TokenCursor.ofText "a," 4) ⟨(), [], []⟩ ∧
    sepEndBy false (firstOnly 0) comma 8 (TokenCursor.ofText "a," 4) ⟨(), [], []⟩ ≠
        orElse (sepEndBy true (firstOnly 0) comma 8) (pure []) (TokenCursor.ofText "a," 4)
          ⟨(), [], []⟩ ∧
    ((∃ d m, sepBy false (firstOnly 1) comma 8 (TokenCursor.ofText "a," 4) ⟨(), [], []⟩ =
        .ok (.ok [.char 'a'] d, m)) ∧
      ∃ f m, sepEndBy false (firstOnly 1) comma 8 (TokenCursor.ofText "a," 4) ⟨(), [], []⟩ =
        .ok (.fail f, m)) ∧
    ∃ c j k, WindowCursor.ofReader (.ofScript cutList) 4 .utf8 (Position.nextChar 4) = .ok (c, j) ∧
      (∃ d, sepEndBy false streamLetter streamComma 3 c j = .ok (.ok ['a'] d, k)) ∧
      ∃ e l, orElse (sepEndBy true streamLetter streamComma 3) (pure []) c k =
        .ok (.ok ['a', 'a'] e, l) := by
  refine ⟨ne_of_fail_of_ok ⟨_, _, rfl⟩ ⟨_, _, _, rfl⟩, ne_of_fail_of_ok ⟨_, _, rfl⟩ ⟨_, _, _, rfl⟩,
    ⟨⟨_, _, rfl⟩, _, _, rfl⟩, cutListCursor (some ('a', 1)) 0, cutListOpened, cutListFailed,
    by with_unfolding_all rfl, ⟨cutListCursor none 1, ?_⟩, cutListCursor (some ('a', 1)) 3,
    cutListRead, ?_⟩
  · with_unfolding_all rfl
  · with_unfolding_all rfl

end Parser

end Descent
