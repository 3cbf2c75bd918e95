import Descent.Parser.Lemmas
import Descent.Parser.Separated
import Descent.Proofs.Alternatives
import Descent.Proofs.Repetition.MaximalRun
import Descent.Proofs.Tracing.Nested

/-! Lists that may be empty. Such a list begins with some parser, and where that fails and has
consumed nothing there are no items. This differs from a list that may not be empty with nothing as
an alternative in one case only: something has been read, and what is read behind it fails back
where the list started. Parsers that never go back leave no room for that. -/
namespace Descent

namespace Parser

section Loops

variable {m : Type → Type} {C τ α β : Type} [MonadRun m]

theorem map_apply (p : Parser m C τ α) (f : α → β) (c : C) :
    map p f c = (do return (← p c).map f) := by
  apply congrArg (p c >>= ·)
  funext r
  cases r <;> rfl

variable [Cursor C τ]

/-- The list that `k` reads behind `p`. It is empty where `p` fails and has consumed nothing. -/
def emptyUnless (p : Parser m C τ α) (k : α → Parser m C τ (List β)) : Parser m C τ (List β) :=
  fun c => do
    match ← p c with
    | .ok v next => k v next
    | .fail f => if f.consumedSince c then return .fail f else return .ok [] c

/-- A round of a repetition is an item, and then the rounds that are left. -/
theorem repeated_eq_emptyUnless (p : Parser m C τ α) (n : Nat) :
    repeated false p (n + 1) = emptyUnless p fun v => map (repeated false p n) (v :: ·) := by
  funext c
  apply congrArg (p c >>= ·)
  funext r
  cases r with
  | ok v next => exact (map_apply (repeated false p n) (v :: ·) next).symm
  | fail f => rfl

end Loops

variable {σ C τ α β γ : Type} {p : Parser (Run σ) C τ α}
  {k : α → Parser (Run σ) C τ β} {q : Parser (Run σ) C τ β} {c d : C} {v : α} {vs : List α}
  {f : Failure C τ} {n : Nat} {i j l : Journal σ}

theorem bind_congr_of_ok {k' : α → Parser (Run σ) C τ β}
    (h : ∀ v d i, p c j = .ok (.ok v d, i) → k v d i = k' v d i) :
    bind p k c j = bind p k' c j := by
  rcases hp : p c j with halt | ⟨⟨v, d⟩ | f, i⟩
  · exact (Run.bind_of_error hp).trans (Run.bind_of_error hp).symm
  · rw [bind_of_ok hp, bind_of_ok hp, h v d i hp]
  · rw [bind_of_fail hp, bind_of_fail hp]

/-- A failure is no success. -/
theorem ne_of_fail_of_ok {x y : Run σ (Reply C τ α)} (hx : ∃ f l, x j = .ok (.fail f, l))
    (hy : ∃ v d l, y j = .ok (.ok v d, l)) : x j ≠ y j := by
  obtain ⟨f, l, hx⟩ := hx
  obtain ⟨v, d, l', hy⟩ := hy
  rw [hx, hy]
  nofun

theorem map_eq_fail {g : α → β} :
    map p g c j = .ok (.fail f, l) ↔ p c j = .ok (.fail f, l) := by
  simp only [map_ends_iff, eq_comm (a := Reply.fail f), Reply.map_eq_fail, exists_eq_right]

variable [Cursor C τ]

/-- Behind some values a loop that reads them in its rounds is still to be run for the rest. -/
theorem Successes.loop_eq {p : Parser (Run σ) C τ α} {loop : Nat → Parser (Run σ) C τ (List α)}
    {strict : Bool} {r : Reply C τ (List α)}
    (hround : ∀ {n c j v d k}, p c j = .ok (.ok v d, k) →
      loop (n + 1) c j = map (loop n) (v :: ·) d k)
    (h : Successes strict p c j vs d i) (hr : loop n d i = .ok (r, l)) :
    loop (vs.length + n) c j = .ok (r.map (vs ++ ·), l) := by
  induction h with
  | nil => simpa using hr
  | @cons c d e v vs j k i hv h ih =>
    rw [List.length_cons, Nat.add_right_comm, hround hv.1]
    exact map_ends_iff.2 ⟨_, ih hr, by rw [Reply.map_map]; rfl⟩

section Direction

def Forward (p : Parser (Run σ) C τ α) : Prop :=
  ∀ ⦃c : C⦄ ⦃j l : Journal σ⦄ ⦃r : Reply C τ α⦄, p c j = .ok (r, l) →
    Cursor.offset c ≤ Cursor.offset r.cursor

def FailsFurther (p : Parser (Run σ) C τ α) : Prop :=
  ∀ ⦃c : C⦄ ⦃j l : Journal σ⦄ ⦃f : Failure C τ⦄, p c j = .ok (.fail f, l) →
    Cursor.offset c < Cursor.offset f.cursor

/-- From `c` the parser succeeds, and what is read behind it fails in the place of `c`. -/
def ReturnsTo (p : Parser (Run σ) C τ α) (k : α → Parser (Run σ) C τ β) (c : C)
    (j : Journal σ) : Prop :=
  ∃ v d i f l, p c j = .ok (.ok v d, i) ∧ k v d i = .ok (.fail f, l) ∧ f.consumedSince c = false

theorem Forward.lt_of_consumed (hp : Forward p) (h : p c j = .ok (.fail f, l))
    (hf : f.consumedSince c = true) : Cursor.offset c < Cursor.offset f.cursor :=
  Nat.lt_of_le_of_ne (hp h) (f.offset_ne hf).symm

theorem consumedSince_of_lt (h : Cursor.offset c < Cursor.offset f.cursor) :
    f.consumedSince c = true := by
  cases hf : f.consumedSince c with
  | true => rfl
  | false => exact absurd (f.offset_eq hf) (Nat.ne_of_gt h)

theorem Forward.bind (hp : Forward p) (hk : ∀ v, Forward (k v)) : Forward (bind p k) := by
  intro c j l r h
  rcases bind_ends_iff.1 h with ⟨f, hf, rfl⟩ | ⟨v, d, i, hv, hr⟩
  · exact hp hf
  · exact Nat.le_trans (hp hv) (hk v hr)

theorem Forward.successes (hp : Forward p) {strict : Bool}
    (h : Successes strict p c j vs d l) : Cursor.offset c ≤ Cursor.offset d := by
  induction h with
  | nil => apply Nat.le_refl
  | cons hv _ ih => exact Nat.le_trans (hp hv.1) ih

/-- A repetition fails behind what it has read. -/
theorem Forward.many (hp : Forward p) (n : Nat) : FailsFurther (many n p) := by
  intro c j l f h
  obtain ⟨vs, d, i, -, hvs, hlast, hf⟩ := many_eq_fail_iff.1 h
  exact Nat.lt_of_le_of_lt (hp.successes hvs) (hp.lt_of_consumed hlast hf)

theorem FailsFurther.map (hp : FailsFurther p) (g : α → β) : FailsFurther (map p g) := by
  intro c j l f h
  exact hp (map_eq_fail.1 h)

theorem not_returnsTo_of_not_ok (h : ∀ v d i, p c j ≠ .ok (.ok v d, i)) :
    ¬ReturnsTo p k c j :=
  fun ⟨v, d, i, _, _, hv, _⟩ => h v d i hv

theorem returnsTo_iff (h : p c j = .ok (.ok v d, i)) : ReturnsTo p k c j ↔
    ∃ f l, k v d i = .ok (.fail f, l) ∧ f.consumedSince c = false := by
  constructor
  · intro ⟨_, _, _, f, l, hv, hf⟩
    cases h.symm.trans hv
    exact ⟨f, l, hf⟩
  · intro ⟨f, l, hf⟩
    exact ⟨v, d, i, f, l, h, hf⟩

/-- To change the value of what is read behind a parser makes no difference. -/
theorem returnsTo_map {g : α → β → γ} :
    ReturnsTo p (fun v => map (k v) (g v)) c j ↔ ReturnsTo p k c j := by
  simp only [ReturnsTo, map_eq_fail]

theorem Forward.not_returnsTo (hp : Forward p) (hk : ∀ v, FailsFurther (k v)) (c : C)
    (j : Journal σ) : ¬ReturnsTo p k c j := by
  intro ⟨v, d, i, f, l, hv, hf, hback⟩
  have hlt : Cursor.offset c < Cursor.offset f.cursor := Nat.lt_of_le_of_lt (hp hv) (hk v hf)
  rw [consumedSince_of_lt hlt] at hback
  cases hback

end Direction

section Empty

variable {k : α → Parser (Run σ) C τ (List β)}

theorem emptyUnless_of_ok (h : p c j = .ok (.ok v d, i)) : emptyUnless p k c j = k v d i :=
  Run.bind_of_ok h

theorem emptyUnless_of_fail (h : p c j = .ok (.fail f, i)) :
    emptyUnless p k c j = .ok (if f.consumedSince c then .fail f else .ok [] c, i) := by
  rw [emptyUnless, Run.bind_of_ok h]
  dsimp only
  split <;> rfl

/-- A list that may be empty succeeds with what is read behind its first parser, or is empty. -/
theorem emptyUnless_eq_ok {us : List β} {e : C} : emptyUnless p k c j = .ok (.ok us e, l) ↔
    (∃ v d i, p c j = .ok (.ok v d, i) ∧ k v d i = .ok (.ok us e, l)) ∨
      ∃ f, p c j = .ok (.fail f, l) ∧ f.consumedSince c = false ∧ us = [] ∧ e = c := by
  constructor
  · intro h
    obtain ⟨r, i, hr, -⟩ := Run.bind_eq_ok.1 h
    cases r with
    | ok v d =>
      rw [emptyUnless_of_ok hr] at h
      exact .inl ⟨v, d, i, hr, h⟩
    | fail f =>
      rw [emptyUnless_of_fail hr] at h
      cases hf : f.consumedSince c with
      | true =>
        rw [hf] at h
        cases h
      | false =>
        rw [hf] at h
        cases h
        exact .inr ⟨f, hr, hf, rfl, rfl⟩
  · rintro (⟨v, d, i, hv, h⟩ | ⟨f, hf, hback, rfl, rfl⟩)
    · rw [emptyUnless_of_ok hv, h]
    · rw [emptyUnless_of_fail hf, hback]
      rfl

theorem emptyUnless_eq_fail : emptyUnless p k c j = .ok (.fail f, l) ↔
    (∃ v d i, p c j = .ok (.ok v d, i) ∧ k v d i = .ok (.fail f, l)) ∨
      p c j = .ok (.fail f, l) ∧ f.consumedSince c = true := by
  constructor
  · intro h
    obtain ⟨r, i, hr, -⟩ := Run.bind_eq_ok.1 h
    cases r with
    | ok v d =>
      rw [emptyUnless_of_ok hr] at h
      exact .inl ⟨v, d, i, hr, h⟩
    | fail g =>
      rw [emptyUnless_of_fail hr] at h
      cases hg : g.consumedSince c with
      | true =>
        rw [hg] at h
        cases h
        exact .inr ⟨hr, hg⟩
      | false =>
        rw [hg] at h
        cases h
  · rintro (⟨v, d, i, hv, h⟩ | ⟨hf, hcommit⟩)
    · rw [emptyUnless_of_ok hv, h]
    · rw [emptyUnless_of_fail hf, hcommit]
      rfl

theorem Forward.emptyUnless (hp : Forward p) (hk : ∀ v, FailsFurther (k v)) :
    FailsFurther (emptyUnless p k) := by
  intro c j l f h
  rcases emptyUnless_eq_fail.1 h with ⟨v, d, i, hv, hf⟩ | ⟨hf, hcommit⟩
  · exact Nat.lt_of_le_of_lt (hp hv) (hk v hf)
  · exact hp.lt_of_consumed hf hcommit

variable [DecidableEq τ]

theorem orElse_pure_of_fail {us : List β} {p : Parser (Run σ) C τ (List β)}
    (h : p c j = .ok (.fail f, i)) :
    orElse p (pure us) c j = .ok (if f.consumedSince c then .fail f else .ok us c, i) := by
  rw [orElse, Run.bind_of_ok h]
  dsimp only
  split <;> rfl

/-- Nothing as an alternative makes a list that may be empty, unless the list goes back to its
start. -/
theorem emptyUnless_eq_iff : emptyUnless p k c j = orElse (bind p k) (pure []) c j ↔
    ¬ReturnsTo p k c j := by
  rcases hp : p c j with halt | ⟨⟨v, d⟩ | f, i⟩
  · have hbind : bind p k c j = .error halt := Run.bind_of_error hp
    rw [orElse_of_settled (by rw [hbind]; trivial), hbind]
    exact iff_of_true (Run.bind_of_error hp) (not_returnsTo_of_not_ok (by simp [hp]))
  · have hbind : bind p k c j = k v d i := bind_of_ok hp
    rw [emptyUnless_of_ok hp, returnsTo_iff hp]
    rcases settled_or_passed c (k v d i) with hsettled | ⟨f, l, hf, hback⟩
    · rw [orElse_of_settled (by rwa [hbind]), hbind]
      apply iff_of_true rfl
      intro ⟨f, l, hf, hback⟩
      rw [hf] at hsettled
      cases hsettled.symm.trans hback
    · rw [orElse_pure_of_fail (hbind.trans hf), hf, hback]
      exact iff_of_false nofun fun h => h ⟨f, l, rfl, hback⟩
  · rw [emptyUnless_of_fail hp, orElse_pure_of_fail (bind_of_fail hp)]
    exact iff_of_true rfl (not_returnsTo_of_not_ok (by simp [hp]))

theorem Forward.emptyUnless_eq (hp : Forward p) (hk : ∀ v, FailsFurther (k v)) :
    Parser.emptyUnless p k = orElse (Parser.bind p k) (pure []) := by
  funext c j
  exact emptyUnless_eq_iff.2 (hp.not_returnsTo hk c j)

end Empty

end Parser

/-- No grammar goes back, neither over tokens in memory nor over a stream. -/
theorem Grammar.forward_run {σ C τ : Type} [Cursor C τ] [Advance (Run σ) C] [Steady σ C]
    [Orderly σ C] [DecidableEq τ] [Token τ] (rules : String → Grammar τ) (bound : Nat)
    (g : Grammar τ) : Parser.Forward (run rules bound g : Parser (Run σ) C τ Value) :=
  fun _ _ _ _ h => offset_le_of_ok h

end Descent
