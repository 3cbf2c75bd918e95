import Descent.Grammar.Basic
import Descent.Parser.Repeat
import Descent.Proofs.Answers
import Descent.Proofs.Repetition.Rounds

/-! Repetitions read maximal runs. A repeated parser succeeds some number of times, each time from
where it ended before, and then there is a run of it that ends the repetition. Whether that last run
has consumed something is asked of the cursor it began at, however much was read before. -/
namespace Descent

variable {σ C τ α : Type} [Cursor C τ]

namespace Parser

def standstill (c : C) : Failure C τ :=
  ⟨.message (Cursor.position c) "repeated parser succeeded without consuming input", c⟩

/-- From `c` the parser succeeds with `v` and ends at `d`. When `strict`, it ends elsewhere. -/
def Succeeds (strict : Bool) (p : Parser (Run σ) C τ α) (c : C) (j : Journal σ) (v : α) (d : C)
    (k : Journal σ) : Prop :=
  p c j = .ok (.ok v d, k) ∧ (strict = true → Cursor.same d c = false)

/-- Successes of a parser with the values `vs`, each from where the one before it ended. When
`strict`, each of them has consumed something. -/
def Successes (strict : Bool) (p : Parser (Run σ) C τ α) :
    C → Journal σ → List α → C → Journal σ → Prop :=
  Rounds (Succeeds strict p)

/-- The run of a repeated parser that ends the repetition: it fails, or it succeeds and consumes
nothing although the repetition is strict. -/
inductive LastRun (strict : Bool) (p : Parser (Run σ) C τ α) (c : C) (j : Journal σ) :
    Reply C τ (List α) → Journal σ → Prop where
  | refused {f : Failure C τ} {m : Journal σ} (hp : p c j = .ok (.fail f, m))
      (hf : f.consumedSince c = false) : LastRun strict p c j (.ok [] c) m
  | failed {f : Failure C τ} {m : Journal σ} (hp : p c j = .ok (.fail f, m))
      (hf : f.consumedSince c = true) : LastRun strict p c j (.fail f) m
  | standstill {v : α} {d : C} {m : Journal σ} (hstrict : strict = true)
      (hp : p c j = .ok (.ok v d, m)) (hd : Cursor.same d c = true) :
    LastRun strict p c j (.fail (standstill c)) m

variable {strict : Bool} {p : Parser (Run σ) C τ α} {c d e : C} {v : α} {vs : List α}
  {f : Failure C τ} {n : Nat} {j k l m : Journal σ}

section Rounds

theorem repeated_of_succeeds (h : Succeeds strict p c j v d k) :
    repeated strict p (n + 1) c j =
      (do return (← repeated strict p n d).map (v :: ·) : Run σ (Reply C τ (List α))) k := by
  obtain ⟨hp, hd⟩ := h
  have hgoes : (strict && Cursor.same d c) = false := by
    cases strict with
    | false => rfl
    | true => exact hd rfl
  rw [repeated, Run.bind_of_ok hp]
  simp only [hgoes, Bool.false_eq_true, if_false]

theorem repeated_of_fail (hp : p c j = .ok (.fail f, k)) :
    repeated strict p (n + 1) c j = .ok (if f.consumedSince c then .fail f else .ok [] c, k) := by
  rw [repeated, Run.bind_of_ok hp]
  dsimp only
  split <;> rfl

theorem repeated_of_standstill (hp : p c j = .ok (.ok v d, k)) (hd : Cursor.same d c = true) :
    repeated true p (n + 1) c j = .ok (.fail (standstill c), k) := by
  rw [repeated, Run.bind_of_ok hp]
  simp only [hd, Bool.and_self, if_true]
  rfl

/-- The last run ends the repetition. -/
theorem LastRun.repeated_eq {r : Reply C τ (List α)} (h : LastRun strict p c j r m) (n : Nat) :
    repeated strict p (n + 1) c j = .ok (r, m) := by
  cases h with
  | refused hp hf => rw [repeated_of_fail hp, hf, if_neg Bool.false_ne_true]
  | failed hp hf => rw [repeated_of_fail hp, if_pos hf]
  | standstill hstrict hp hd => rw [hstrict, repeated_of_standstill hp hd]

/-- A run of a repeated parser is the last, or a success that the repetition goes on from. -/
theorem lastRun_or_succeeds (strict : Bool) {r : Reply C τ α} (hp : p c j = .ok (r, k)) :
    (∃ s, LastRun strict p c j s k) ∨ ∃ v d, r = .ok v d ∧ Succeeds strict p c j v d k := by
  cases r with
  | fail f =>
    cases hf : f.consumedSince c with
    | false => exact .inl ⟨_, .refused hp hf⟩
    | true => exact .inl ⟨_, .failed hp hf⟩
  | ok v d =>
    by_cases hd : strict = true ∧ Cursor.same d c = true
    · exact .inl ⟨_, .standstill hd.1 hp hd.2⟩
    · refine .inr ⟨v, d, rfl, hp, fun hstrict => ?_⟩
      exact Bool.eq_false_iff.2 fun hsame => hd ⟨hstrict, hsame⟩

theorem repeated_succ_iff {r : Reply C τ (List α)} :
    repeated strict p (n + 1) c j = .ok (r, m) ↔ LastRun strict p c j r m ∨
      ∃ v d k s, Succeeds strict p c j v d k ∧ repeated strict p n d k = .ok (s, m) ∧
        r = s.map (v :: ·) := by
  constructor
  · intro h
    have hrun := h
    rw [repeated, Run.bind_eq_ok] at hrun
    obtain ⟨s, k, hp, -⟩ := hrun
    obtain ⟨t, hlast⟩ | ⟨v, d, -, hv⟩ := lastRun_or_succeeds strict hp
    · cases (hlast.repeated_eq n).symm.trans h
      exact .inl hlast
    · rw [repeated_of_succeeds hv] at h
      obtain ⟨s, i, hs, h⟩ := Run.bind_eq_ok.1 h
      cases h
      exact .inr ⟨v, d, k, s, hv, hs, rfl⟩
  · rintro (h | ⟨v, d, k, s, hv, hs, rfl⟩)
    · exact h.repeated_eq n
    · rw [repeated_of_succeeds hv]
      exact Run.bind_of_ok hs

/-- What a repetition comes to: some successes, and then the last run. -/
theorem repeated_ends_iff {r : Reply C τ (List α)} : repeated strict p n c j = .ok (r, m) ↔
    ∃ vs d k s, vs.length < n ∧ Successes strict p c j vs d k ∧ LastRun strict p d k s m ∧
      r = s.map (vs ++ ·) :=
  loop_ends_iff (by rintro _ _ _ _ ⟨⟩) fun _ _ _ _ _ => repeated_succ_iff

theorem lastRun_ok_iff : LastRun strict p c j (.ok vs d) m ↔
    vs = [] ∧ d = c ∧ ∃ f, p c j = .ok (.fail f, m) ∧ f.consumedSince c = false := by
  constructor
  · rintro (⟨hp, hf⟩ | _ | _)
    exact ⟨rfl, rfl, _, hp, hf⟩
  · rintro ⟨rfl, rfl, f, hp, hf⟩
    exact .refused hp hf

theorem lastRun_fail_iff : LastRun false p c j (.fail f) m ↔
    p c j = .ok (.fail f, m) ∧ f.consumedSince c = true := by
  constructor
  · rintro (_ | ⟨hp, hf⟩ | ⟨⟨⟩, _, _⟩)
    exact ⟨hp, hf⟩
  · rintro ⟨hp, hf⟩
    exact .failed hp hf

/-- A repetition succeeds behind some successes of its parser, where that fails and has consumed
nothing. -/
theorem repeated_eq_ok_iff : repeated strict p n c j = .ok (.ok vs d, m) ↔
    vs.length < n ∧ ∃ k f, Successes strict p c j vs d k ∧ p d k = .ok (.fail f, m) ∧
      f.consumedSince d = false := by
  have hlast {e i us d} (h : LastRun strict p e i (.ok us d) m) : us = [] ∧ d = e := by
    obtain ⟨rfl, rfl, -⟩ := lastRun_ok_iff.1 h
    exact ⟨rfl, rfl⟩
  rw [repeated_ends_iff, ends_ok_iff hlast]
  simp only [lastRun_ok_iff, true_and, exists_and_left]

/-- A repetition that is not strict fails with its parser, where that has consumed something. -/
theorem many_eq_fail_iff : many n p c j = .ok (.fail f, m) ↔
    ∃ vs d k, vs.length < n ∧ Successes false p c j vs d k ∧ p d k = .ok (.fail f, m) ∧
      f.consumedSince d = true := by
  rw [many, repeated_ends_iff, ends_fail_iff]
  simp only [lastRun_fail_iff]

end Rounds

section Companions

/-- Behind some successes a parser that is run a number of times is still to be run for the rest of
them. -/
theorem Successes.count_eq {r : Reply C τ (List α)} (h : Successes strict p c j vs d k)
    (hr : count p n d k = .ok (r, m)) :
    count p (vs.length + n) c j = .ok (r.map (vs ++ ·), m) := by
  induction h with
  | nil => simpa using hr
  | @cons c d e v vs j k l hv h ih =>
    rw [List.length_cons, Nat.add_right_comm, count, bind_of_ok hv.1]
    exact map_ends_iff.2 ⟨_, ih hr, by rw [Reply.map_map]; rfl⟩

/-- One or more values are zero or more values, but for the failure where there are none. -/
theorem Successes.repeated1_eq (h : Successes strict p c j vs d k)
    (hp : p d k = .ok (.fail f, m)) (hf : f.consumedSince d = false) (hn : vs.length < n) :
    repeated1 strict p n c j = .ok (if vs = [] then .fail f else .ok vs d, m) := by
  cases h with
  | nil => exact bind_of_fail hp
  | @cons _ d _ v vs _ k _ hv h =>
    have hrest := repeated_eq_ok_iff.2 ⟨Nat.lt_of_succ_lt hn, _, f, h, hp, hf⟩
    rw [if_neg (List.cons_ne_nil v vs), repeated1, bind_of_ok hv.1]
    exact map_eq_ok.2 ⟨vs, hrest, rfl⟩

variable {S : Set (Journal σ)}

/-- A parser that answers alike in a set of states does not lead out of it. -/
theorem Successes.mem (h : Successes strict p c j vs d k) (hp : Uniform S p) (hj : j ∈ S) :
    k ∈ S := by
  induction h with
  | nil => exact hj
  | cons hv _ ih => exact ih (hp.mem hj hv.1)

end Companions

/-- A repetition reads the maximal run of values. It succeeds where its parser succeeds time after
time and then fails and has consumed nothing, and it fails with the parser where that has consumed
something since it last succeeded; `n` bounds how often the parser is run. The parser run as many
times as it had values succeeds with these, once more it fails, and once again behind them it fails
and consumes nothing, also later on if its answers do not depend on when it is run. To drop the
values makes no other difference, and to ask for one or more makes none unless there is no value;
then the parser's own failure is the answer. -/
theorem many_reads_maximal_run (p : Parser (Run σ) C τ α) (n : Nat) (c : C) (j : Journal σ) :
    (∀ vs d m, many n p c j = .ok (.ok vs d, m) ↔ vs.length < n ∧
      ∃ k f, Successes false p c j vs d k ∧ p d k = .ok (.fail f, m) ∧
        f.consumedSince d = false) ∧
    (∀ f m, many n p c j = .ok (.fail f, m) ↔ ∃ vs d k, vs.length < n ∧
      Successes false p c j vs d k ∧ p d k = .ok (.fail f, m) ∧ f.consumedSince d = true) ∧
    ∀ vs d m, many n p c j = .ok (.ok vs d, m) → ∃ k f, f.consumedSince d = false ∧
      count p vs.length c j = .ok (.ok vs d, k) ∧ p d k = .ok (.fail f, m) ∧
      count p (vs.length + 1) c j = .ok (.fail f, m) ∧
      skipMany n p c j = .ok (.ok () d, m) ∧
      (vs ≠ [] → many1 n p c j = .ok (.ok vs d, m)) ∧
      (vs = [] → p c j = .ok (.fail f, m) ∧ many1 n p c j = .ok (.fail f, m)) ∧
      ∀ S : Set (Journal σ), Uniform S p → j ∈ S → m ∈ S ∧ Answers S p d (.fail f) := by
  refine ⟨fun _ _ _ => repeated_eq_ok_iff, fun _ _ => many_eq_fail_iff, fun vs d m h => ?_⟩
  obtain ⟨hn, k, f, hvs, hp, hf⟩ := repeated_eq_ok_iff.1 h
  have hcount : count p vs.length c j = .ok (.ok vs d, k) := by
    have hnone : count p 0 d k = .ok (.ok [] d, k) := rfl
    simpa [Reply.map] using hvs.count_eq hnone
  have hcountMore : count p (vs.length + 1) c j = .ok (.fail f, m) := by
    have hone : count p 1 d k = .ok (.fail f, m) := bind_of_fail hp
    exact hvs.count_eq hone
  have hmany1 := hvs.repeated1_eq hp hf hn
  refine ⟨k, f, hf, hcount, hp, hcountMore, map_eq_ok.2 ⟨vs, h, rfl⟩, ?_, ?_, ?_⟩
  · intro hsome
    rwa [if_neg hsome] at hmany1
  · rintro rfl
    obtain ⟨rfl, rfl⟩ := rounds_nil_iff.1 hvs
    exact ⟨hp, hmany1⟩
  · intro S huniform hj
    have hk : k ∈ S := hvs.mem huniform hj
    exact ⟨huniform.mem hk hp, huniform hk hp⟩

end Parser

namespace Grammar

def letterA : Parser (Run Unit) (TokenCursor Char) Char Value := run noRules 4 (charOf (.only 'a'))

end Grammar

namespace Parser

open Grammar (letterA)

/-- In `aab` there are two of the letter. A third is missed, as often as one asks for it. -/
theorem many_reads_maximal_run_aab : ∃ f m,
    many 8 letterA (TokenCursor.ofText "aab" 4) ⟨(), [], []⟩ =
        .ok (.ok [.char 'a', .char 'a'] ((TokenCursor.ofText "aab" 4).forward 2), m) ∧
      count letterA 3 (TokenCursor.ofText "aab" 4) ⟨(), [], []⟩ = .ok (.fail f, m) ∧
      Answers Set.univ letterA ((TokenCursor.ofText "aab" 4).forward 2) (.fail f) := by
  have hmany : ∃ m, many 8 letterA (TokenCursor.ofText "aab" 4) ⟨(), [], []⟩ =
      .ok (.ok [.char 'a', .char 'a'] ((TokenCursor.ofText "aab" 4).forward 2), m) :=
    ⟨_, rfl⟩
  obtain ⟨m, hmany⟩ := hmany
  obtain ⟨-, -, hall⟩ := many_reads_maximal_run letterA 8 (TokenCursor.ofText "aab" 4) ⟨(), [], []⟩
  obtain ⟨k, f, -, -, -, hcount, -, -, -, hagain⟩ := hall _ _ _ hmany
  obtain ⟨-, hagain⟩ := hagain Set.univ (Grammar.uniform_run _ _ _) trivial
  exact ⟨f, m, hmany, hcount, hagain⟩

end Parser

end Descent
