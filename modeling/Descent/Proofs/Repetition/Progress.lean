import Descent.Proofs.Repetition.MaximalRun
import Mathlib.Data.Set.Function
import Mathlib.Tactic.IntervalCases

/-! Repetitions that insist on progress. A strict repetition refuses the first success that consumed
nothing, so each of its rounds brings the cursor closer to the end of the input, and it ends
whatever it repeats. One or more values are read by a run that nobody checks and a strict repetition
behind it: if the first run consumed nothing it is made again at the same cursor, and refused
there. -/
namespace Descent

variable {σ C τ α β : Type}

def Journal.tallied (j : Journal σ) (t : Nat) : Journal (σ × Nat) :=
  ⟨(j.source, t), j.events, j.built⟩

namespace Parser

/-- The same parser, with a tally of how often it was run. -/
def tallied (p : Parser (Run σ) C τ α) : Parser (Run (σ × Nat)) C τ α := fun c j =>
  match p c ⟨j.source.1, j.events, j.built⟩ with
  | .ok (r, k) => .ok (r, k.tallied (j.source.2 + 1))
  | .error h => .error h

variable {places : Set C} {last : Nat} {S : Set (Journal σ)} {strict : Bool}
  {p : Parser (Run σ) C τ α} {c d e : C} {v : α} {vs : List α} {n : Nat} {j k l m : Journal σ}

theorem tallied_of_ok {r : Reply C τ α} (h : p c j = .ok (r, k)) (t : Nat) :
    tallied p c (j.tallied t) = .ok (r, k.tallied (t + 1)) := by
  obtain ⟨source, events, built⟩ := j
  simp [tallied, Journal.tallied, h]

variable [Cursor C τ]

/-- Cursors of one input: offsets tell them apart, and none stands behind the end at `last`. -/
structure IsInput (places : Set C) (last : Nat) : Prop where
  injOn : Set.InjOn Cursor.offset places
  le_last {c : C} : c ∈ places → Cursor.offset c ≤ last

/-- Wherever in the input the parser is run it ends, with an answer that depends on the cursor
alone, and a success leads further into the input or leaves the cursor where it was. -/
structure Onward (S : Set (Journal σ)) (places : Set C) (p : Parser (Run σ) C τ α) : Prop where
  answers {c : C} : c ∈ places → ∃ r, Answers S p c r
  onward {c d : C} {v : α} : c ∈ places → Answers S p c (.ok v d) →
    d ∈ places ∧ Cursor.offset c ≤ Cursor.offset d

section Tally

theorem Successes.tallied (h : Successes strict p c j vs d k) (t : Nat) :
    Successes strict (tallied p) c (j.tallied t) vs d (k.tallied (t + vs.length)) := by
  induction h generalizing t with
  | nil => exact .nil
  | @cons c d e v vs j k l hv _ ih =>
    refine .cons ⟨tallied_of_ok hv.1 t, hv.2⟩ ?_
    rw [List.length_cons, Nat.add_comm vs.length, ← Nat.add_assoc]
    exact ih (t + 1)

theorem LastRun.tallied {r : Reply C τ (List α)} (h : LastRun strict p c j r m) (t : Nat) :
    LastRun strict (tallied p) c (j.tallied t) r (m.tallied (t + 1)) := by
  cases h with
  | refused hp hf => exact .refused (tallied_of_ok hp t) hf
  | failed hp hf => exact .failed (tallied_of_ok hp t) hf
  | standstill hstrict hp hd => exact .standstill hstrict (tallied_of_ok hp t) hd

end Tally

section Onward

theorem Onward.of_ok (hp : Onward S places p) (hc : c ∈ places) (hj : j ∈ S)
    (h : p c j = .ok (.ok v d, k)) :
    d ∈ places ∧ Cursor.offset c ≤ Cursor.offset d ∧ k ∈ S := by
  obtain ⟨r, hr⟩ := hp.answers hc
  obtain ⟨rfl, hk⟩ := hr.eq_of_run hj h
  obtain ⟨hd, hle⟩ := hp.onward hc hr
  exact ⟨hd, hle, hk⟩

/-- A success that consumed something leads further. -/
theorem Onward.lt_of_succeeds (hp : Onward S places p) (hc : c ∈ places) (hj : j ∈ S)
    (h : Succeeds true p c j v d k) : Cursor.offset c < Cursor.offset d := by
  have hne : Cursor.offset d ≠ Cursor.offset c := by simpa [Cursor.same] using h.2 rfl
  have hle := (hp.of_ok hc hj h.1).2.1
  omega

/-- Successes that have each consumed something lead at least as far as there are of them. -/
theorem Onward.of_successes (hp : Onward S places p) (h : Successes true p c j vs d k)
    (hc : c ∈ places) (hj : j ∈ S) :
    d ∈ places ∧ Cursor.offset c + vs.length ≤ Cursor.offset d := by
  induction h with
  | nil => exact ⟨hc, Nat.le_refl _⟩
  | cons hv _ ih =>
    have hlt := hp.lt_of_succeeds hc hj hv
    obtain ⟨hd, -, hk⟩ := hp.of_ok hc hj hv.1
    obtain ⟨he, hle⟩ := ih hd hk
    refine ⟨he, ?_⟩
    rw [List.length_cons]
    omega

/-- A strict repetition gets to its last run, since what is left of the input becomes less. -/
theorem Onward.exists_lastRun (hinput : IsInput places last) (hp : Onward S places p)
    (hc : c ∈ places) (hj : j ∈ S) :
    ∃ vs d k r m, Successes true p c j vs d k ∧ LastRun true p d k r m := by
  induction hleft : last - Cursor.offset c using Nat.strong_induction_on generalizing c j with
  | _ left ih =>
    obtain ⟨r, hr⟩ := hp.answers hc
    obtain ⟨k, -, hrun⟩ := hr j hj
    obtain ⟨s, hlast⟩ | ⟨v, d, rfl, hv⟩ := lastRun_or_succeeds true hrun
    · exact ⟨[], c, j, s, k, .nil, hlast⟩
    · have hlt := hp.lt_of_succeeds hc hj hv
      obtain ⟨hd, -, hk⟩ := hp.of_ok hc hj hv.1
      have hle := hinput.le_last hd
      obtain ⟨vs, e, l, s, m, hvs, hlast⟩ := ih _ (by omega) hd hk rfl
      exact ⟨v :: vs, e, l, s, m, .cons hv hvs, hlast⟩

/-- A strict repetition ends, and runs its parser no more often than there is input left, and once
more. -/
theorem Onward.repeated_ends (hinput : IsInput places last) (hp : Onward S places p)
    (hc : c ∈ places) (hj : j ∈ S) (hn : last - Cursor.offset c < n) (t : Nat) :
    ∃ r m u, repeated true p n c j = .ok (r, m) ∧
      repeated true (tallied p) n c (j.tallied t) = .ok (r, m.tallied u) ∧
      u ≤ t + (last - Cursor.offset c) + 1 := by
  obtain ⟨vs, d, k, s, m, hvs, hlast⟩ := hp.exists_lastRun hinput hc hj
  obtain ⟨hd, hlen⟩ := hp.of_successes hvs hc hj
  have hle := hinput.le_last hd
  have hlength : vs.length < n := by omega
  refine ⟨s.map (vs ++ ·), m, t + vs.length + 1, ?_, ?_, by omega⟩
  · exact repeated_ends_iff.2 ⟨vs, d, k, s, hlength, hvs, hlast, rfl⟩
  · exact repeated_ends_iff.2 ⟨vs, d, _, s, hlength, hvs.tallied t, hlast.tallied _, rfl⟩

/-- So does a strict repetition behind a first run, which may come on top of that. -/
theorem Onward.repeated1_ends (hinput : IsInput places last) (hp : Onward S places p)
    (hc : c ∈ places) (hj : j ∈ S) (hn : last - Cursor.offset c < n) (t : Nat) :
    ∃ r m u, repeated1 true p n c j = .ok (r, m) ∧
      repeated1 true (tallied p) n c (j.tallied t) = .ok (r, m.tallied u) ∧
      u ≤ t + (last - Cursor.offset c) + 2 := by
  obtain ⟨r, hr⟩ := hp.answers hc
  obtain ⟨k, -, hrun⟩ := hr j hj
  cases r with
  | fail f =>
    exact ⟨.fail f, k, t + 1, bind_of_fail hrun, bind_of_fail (tallied_of_ok hrun t), by omega⟩
  | ok v d =>
    obtain ⟨hd, hle, hk⟩ := hp.of_ok hc hj hrun
    have hleft : last - Cursor.offset d < n := by omega
    obtain ⟨s, m, u, hs, hst, hu⟩ := hp.repeated_ends hinput hd hk hleft (t + 1)
    refine ⟨s.map (v :: ·), m, u, ?_, ?_, by omega⟩
    · exact (bind_of_ok hrun).trans (map_ends_iff.2 ⟨s, hs, rfl⟩)
    · exact (bind_of_ok (tallied_of_ok hrun t)).trans (map_ends_iff.2 ⟨s, hst, rfl⟩)

end Onward

section Standstill

def AlwaysMoves (p : Parser (Run σ) C τ α) (c : C) (j : Journal σ) : Prop :=
  ∀ ⦃vs d k⦄, Successes false p c j vs d k → Successes true p c j vs d k

theorem AlwaysMoves.next (h : AlwaysMoves p c j) (hp : p c j = .ok (.ok v d, k)) :
    Succeeds true p c j v d k ∧ AlwaysMoves p d k := by
  have hsplit {vs e l} (hvs : Successes false p d k vs e l) :
      Succeeds true p c j v d k ∧ Successes true p d k vs e l := by
    obtain ⟨_, _, hv, hws⟩ := rounds_cons_iff.1 (h (.cons ⟨hp, nofun⟩ hvs))
    cases hv.1.symm.trans hp
    exact ⟨hv, hws⟩
  exact ⟨(hsplit .nil).1, fun _ _ _ hvs => (hsplit hvs).2⟩

/-- Where no run stands still it makes no difference to ask for progress. -/
theorem AlwaysMoves.repeated_eq (h : AlwaysMoves p c j) (n : Nat) :
    repeated true p n c j = repeated false p n c j := by
  induction n generalizing c j with
  | zero => rfl
  | succ n ih =>
    rcases hp : p c j with halt | ⟨⟨v, d⟩ | f, k⟩
    · exact (Run.bind_of_error hp).trans (Run.bind_of_error hp).symm
    · obtain ⟨hfirst, hnext⟩ := h.next hp
      have hlax : Succeeds false p c j v d k := ⟨hp, nofun⟩
      rw [repeated_of_succeeds hfirst, repeated_of_succeeds hlax]
      exact Run.bind_congr (ih hnext) _
    · rw [repeated_of_fail hp, repeated_of_fail hp]

theorem AlwaysMoves.repeated1_eq (h : AlwaysMoves p c j) (n : Nat) :
    repeated1 true p n c j = repeated1 false p n c j := by
  rcases hp : p c j with halt | ⟨⟨v, d⟩ | f, k⟩
  · exact (Run.bind_of_error hp).trans (Run.bind_of_error hp).symm
  · rw [repeated1, repeated1, bind_of_ok hp, bind_of_ok hp]
    exact Run.bind_congr ((h.next hp).2.repeated_eq n) _
  · exact (bind_of_fail hp).trans (bind_of_fail hp).symm

/-- The first success that consumed nothing is refused at its cursor. -/
theorem Successes.repeated_standstill (h : Successes true p c j vs d k)
    (hp : p d k = .ok (.ok v e, l)) (he : Cursor.same e d = true) (hn : vs.length < n) :
    repeated true p n c j = .ok (.fail (standstill d), l) :=
  repeated_ends_iff.2 ⟨vs, d, k, _, hn, h, .standstill rfl hp he, rfl⟩

/-- A first run that consumed nothing is not checked. The one behind it is made at the same cursor,
comes to the same, and is. -/
theorem Onward.repeated1_standstill (hinput : IsInput places last) (hp : Onward S places p)
    (hc : c ∈ places) (hj : j ∈ S) (h : p c j = .ok (.ok v e, l)) (he : Cursor.same e c = true)
    (hn : 0 < n) : ∃ m, repeated1 true p n c j = .ok (.fail (standstill c), m) := by
  obtain ⟨hplace, -, hl⟩ := hp.of_ok hc hj h
  obtain rfl : e = c := hinput.injOn hplace hc (by simpa [Cursor.same] using he)
  obtain ⟨r, hr⟩ := hp.answers hc
  obtain ⟨rfl, -⟩ := hr.eq_of_run hj h
  obtain ⟨m, -, hagain⟩ := hr l hl
  have hrest : repeated true p n e l = .ok (.fail (standstill e), m) :=
    Successes.repeated_standstill .nil hagain he hn
  exact ⟨m, (bind_of_ok h).trans (map_ends_iff.2 ⟨_, hrest, rfl⟩)⟩

end Standstill

/-- What it means that a repetition of `p` from `c` insists on progress, where `left` is what is
left of the input behind `c`, `value` says what is made of the values that were read, and `lax` is
the same repetition without that demand. -/
structure InsistsOnProgress (p : Parser (Run σ) C τ α) (c : C) (j : Journal σ) (left : Nat)
    (value : List α → β)
    (lax strict : ∀ {σ : Type}, Parser (Run σ) C τ α → Parser (Run σ) C τ β) : Prop where
  /-- It ends, and has run `p` at most so many times. -/
  ends (t : Nat) : ∃ r m u, strict p c j = .ok (r, m) ∧
    strict (tallied p) c (j.tallied t) = .ok (r, m.tallied u) ∧ u ≤ t + left + 2
  /-- It succeeds only behind successes of `p` that have each consumed something. -/
  progress {w : β} {d : C} {m : Journal σ} : strict p c j = .ok (.ok w d, m) →
    ∃ vs k f, w = value vs ∧ Successes true p c j vs d k ∧ p d k = .ok (.fail f, m) ∧
      f.consumedSince d = false
  /-- Where every success consumes something the demand makes no difference. -/
  agrees : AlwaysMoves p c j → strict p c j = lax p c j
  /-- The first success that consumes nothing is refused at its cursor. -/
  refuses {vs : List α} {d e : C} {v : α} {k l : Journal σ} : Successes true p c j vs d k →
    p d k = .ok (.ok v e, l) → Cursor.same e d = true →
    ∃ m, strict p c j = .ok (.fail ⟨.message (Cursor.position d)
      "repeated parser succeeded without consuming input", d⟩, m)

section Kinds

variable (hinput : IsInput places last) (hp : Onward S places p) (hc : c ∈ places) (hj : j ∈ S)
  (hn : last - Cursor.offset c < n)
include hinput hp hc hj hn

theorem Onward.insists_repeated :
    InsistsOnProgress p c j (last - Cursor.offset c) id (many n) (fun q => repeated true q n) where
  ends t := by
    obtain ⟨r, m, u, hr, ht, hu⟩ := hp.repeated_ends hinput hc hj hn t
    exact ⟨r, m, u, hr, ht, by omega⟩
  progress h := by
    obtain ⟨-, k, f, hvs, hlast, hf⟩ := repeated_eq_ok_iff.1 h
    exact ⟨_, k, f, rfl, hvs, hlast, hf⟩
  agrees h := h.repeated_eq n
  refuses hvs hv he := by
    obtain ⟨hd, hlen⟩ := hp.of_successes hvs hc hj
    have hle := hinput.le_last hd
    exact ⟨_, hvs.repeated_standstill hv he (by omega)⟩

theorem Onward.insists_repeated1 :
    InsistsOnProgress p c j (last - Cursor.offset c) id (many1 n)
      (fun q => repeated1 true q n) where
  ends := hp.repeated1_ends hinput hc hj hn
  progress {w d m} h := by
    obtain ⟨v, e, i, hv, hmap⟩ := bind_eq_ok.1 h
    obtain ⟨vs, hrest, rfl⟩ := map_eq_ok.1 hmap
    obtain ⟨-, k, f, hvs, hlast, hf⟩ := repeated_eq_ok_iff.1 hrest
    refine ⟨v :: vs, k, f, rfl, .cons ⟨hv, fun _ => ?_⟩ hvs, hlast, hf⟩
    -- had the first run stood still, the second would have been refused
    refine Bool.eq_false_iff.2 fun he => ?_
    obtain ⟨_, hrefused⟩ := hp.repeated1_standstill hinput hc hj hv he (Nat.zero_lt_of_lt hn)
    cases h.symm.trans hrefused
  agrees h := h.repeated1_eq n
  refuses hvs hv he := by
    cases hvs with
    | nil => exact hp.repeated1_standstill hinput hc hj hv he (by omega)
    | cons hfirst hvs =>
      obtain ⟨hd, -, hk⟩ := hp.of_ok hc hj hfirst.1
      have hlt := hp.lt_of_succeeds hc hj hfirst
      obtain ⟨hplace, hlen⟩ := hp.of_successes hvs hd hk
      have hle := hinput.le_last hplace
      have hrest : repeated true p n _ _ = .ok (.fail (standstill _), _) :=
        Successes.repeated_standstill hvs hv he (by omega)
      exact ⟨_, (bind_of_ok hfirst.1).trans (map_ends_iff.2 ⟨_, hrest, rfl⟩)⟩

theorem Onward.insists_skip :
    InsistsOnProgress p c j (last - Cursor.offset c) (fun _ => ()) (skipMany n)
      (fun q => map (repeated true q n) fun _ => ()) where
  ends t := by
    obtain ⟨r, m, u, hr, ht, hu⟩ := hp.repeated_ends hinput hc hj hn t
    exact ⟨r.map fun _ => (), m, u, map_ends_iff.2 ⟨r, hr, rfl⟩, map_ends_iff.2 ⟨r, ht, rfl⟩,
      by omega⟩
  progress h := by
    obtain ⟨vs, hrun, rfl⟩ := map_eq_ok.1 h
    obtain ⟨-, k, f, hvs, hlast, hf⟩ := repeated_eq_ok_iff.1 hrun
    exact ⟨vs, k, f, rfl, hvs, hlast, hf⟩
  agrees h := Run.bind_congr (h.repeated_eq n) _
  refuses hvs hv he := by
    obtain ⟨m, hm⟩ := (hp.insists_repeated hinput hc hj hn).refuses hvs hv he
    exact ⟨m, map_ends_iff.2 ⟨_, hm, rfl⟩⟩

end Kinds

/-- Insisting on progress makes a repetition end and refuses every success that consumed nothing,
whether zero or more values are asked for, one or more, or none are kept. `n` bounds how often the
parser may be run and leaves room for as many runs as there is input left, and one more. -/
theorem strict_repetitions_progress (hinput : IsInput places last) (hp : Onward S places p)
    (hc : c ∈ places) (hj : j ∈ S) (hn : last - Cursor.offset c < n) :
    InsistsOnProgress p c j (last - Cursor.offset c) id (many n) (fun q => repeated true q n) ∧
    InsistsOnProgress p c j (last - Cursor.offset c) id (many1 n)
      (fun q => repeated1 true q n) ∧
    InsistsOnProgress p c j (last - Cursor.offset c) (fun _ => ()) (skipMany n)
      (fun q => map (repeated true q n) fun _ => ()) :=
  ⟨hp.insists_repeated hinput hc hj hn, hp.insists_repeated1 hinput hc hj hn,
    hp.insists_skip hinput hc hj hn⟩

end Parser

namespace Grammar

open TokenCursor

variable {τ : Type} {start : TokenCursor τ}

/-- The cursors that a list of tokens has behind its start are those of one input. -/
theorem isInput_reaches (start : TokenCursor τ) :
    Parser.IsInput {c | start.Reaches c} (start.position.offset + start.rest.length) where
  injOn _ hc _ hd h := hc.eq_of_offset hd h
  le_last := by
    rintro c ⟨k, hk, rfl⟩
    have hoffset := offset_forward hk
    exact hoffset.trans_le (Nat.add_le_add_left hk _)

/-- Over tokens in memory a grammar only has to end for it to lead onward. -/
theorem onward_run [DecidableEq τ] [Token τ] {rules : String → Grammar τ} {bound : Nat}
    {g : Grammar τ}
    (h : ∀ c, start.Reaches c →
      ∃ r k, (run rules bound g c : Run Unit _) ⟨(), [], []⟩ = .ok (r, k)) :
    Parser.Onward Set.univ {c | start.Reaches c}
      (run rules bound g : Parser (Run Unit) (TokenCursor τ) τ Value) where
  answers {c} hc := by
    obtain ⟨r, k, hr⟩ := h c hc
    exact ⟨r, uniform_run rules bound g trivial hr⟩
  onward {c d v} hc hv := by
    obtain ⟨k, -, hrun⟩ := hv ⟨(), [], []⟩ trivial
    have hd : start.Reaches d :=
      ((forwardOnly Unit start).run_ok (fun _ name => forwardOnly_admits start _ (rules name))
        (forwardOnly_admits start _ g) hc hrun).1
    have hle : c.position.offset ≤ d.position.offset := (reaches_of_ok hrun).offset_le
    exact ⟨hd, hle⟩

def optionalA : Parser (Run Unit) (TokenCursor Char) Char Value :=
  run noRules 4 (optional (charOf (.only 'a')))

end Grammar

namespace Parser

open Grammar (optionalA)

/-- In front of the `b` of `aab` there is no third letter to be read, and to read none is no
progress. -/
theorem strict_repetitions_progress_aab :
    IsInput {c | (TokenCursor.ofText "aab" 4).Reaches c} 3 ∧
      Onward Set.univ {c | (TokenCursor.ofText "aab" 4).Reaches c} optionalA ∧
      ∃ m, repeated1 true optionalA 8 (TokenCursor.ofText "aab" 4) ⟨(), [], []⟩ =
        .ok (.fail ⟨.message ⟨1, 3, 2⟩ "repeated parser succeeded without consuming input",
          (TokenCursor.ofText "aab" 4).forward 2⟩, m) := by
  have hinput : IsInput {c | (TokenCursor.ofText "aab" 4).Reaches c} 3 :=
    Grammar.isInput_reaches _
  have honward : Onward Set.univ {c | (TokenCursor.ofText "aab" 4).Reaches c} optionalA := by
    apply Grammar.onward_run
    rintro c ⟨k, hk, rfl⟩
    have hfour : k ≤ 3 := hk
    interval_cases k <;> exact ⟨_, _, rfl⟩
  have hletters : Successes true optionalA (TokenCursor.ofText "aab" 4) ⟨(), [], []⟩
      [.present (.char 'a'), .present (.char 'a')] ((TokenCursor.ofText "aab" 4).forward 2)
      ⟨(), [], []⟩ :=
    .cons ⟨rfl, fun _ => rfl⟩ (.cons ⟨rfl, fun _ => rfl⟩ .nil)
  obtain ⟨-, hmany1, -⟩ := strict_repetitions_progress hinput honward
    (TokenCursor.reaches_refl _) (Set.mem_univ ⟨(), [], []⟩) (n := 8) (by decide)
  exact ⟨hinput, honward, hmany1.refuses hletters rfl rfl⟩

end Parser

end Descent
