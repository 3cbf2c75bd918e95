import Descent.Cursor.Memory
import Descent.Proofs.Inversion
import Descent.Proofs.Invariant

/-! Runs over tokens in memory only move forward. Every cursor that a run comes to is the one it
began with, moved on some number of times, so offsets tell the cursors of a run apart. -/
namespace Descent

variable {σ τ : Type}

namespace TokenCursor

def step (c : TokenCursor τ) : TokenCursor τ :=
  match c.rest with
  | [] => c
  | t :: rest => c.past t rest

def forward (c : TokenCursor τ) : Nat → TokenCursor τ
  | 0 => c
  | k + 1 => (c.forward k).step

def Reaches (start c : TokenCursor τ) : Prop :=
  ∃ k, k ≤ start.rest.length ∧ c = start.forward k

variable {start c d : TokenCursor τ}

@[simp] theorem rest_step (c : TokenCursor τ) : c.step.rest = c.rest.tail := by
  rw [step]
  split <;> simp_all [past]

theorem offset_step (h : 0 < c.rest.length) : c.step.position.offset = c.position.offset + 1 := by
  obtain ⟨t, rest, ht⟩ := List.exists_cons_of_length_pos h
  simp [step, ht, past]

theorem position_step {t : τ} (h : Cursor.current c = some t) :
    c.step.position = { c.rule c.position t with offset := c.position.offset + 1 } := by
  obtain ⟨source, rest, position, rule⟩ := c
  cases rest with
  | nil => cases h
  | cons u rest =>
    cases h
    rfl

@[simp] theorem rule_step (c : TokenCursor τ) : c.step.rule = c.rule := by
  rw [step]
  split <;> rfl

@[simp] theorem rule_forward (c : TokenCursor τ) (k : Nat) : (c.forward k).rule = c.rule := by
  induction k with
  | zero => rfl
  | succ k ih => rw [forward, rule_step, ih]

@[simp] theorem rest_forward (c : TokenCursor τ) (k : Nat) :
    (c.forward k).rest = c.rest.drop k := by
  induction k with
  | zero => rfl
  | succ k ih => rw [forward, rest_step, ih, List.tail_drop]

@[simp] theorem current_forward (c : TokenCursor τ) (k : Nat) :
    Cursor.current (c.forward k) = c.rest[k]? := by
  change (c.forward k).rest.head? = _
  rw [rest_forward, List.head?_drop]

/-- As long as there are tokens, every move adds one to the offset. -/
theorem offset_forward {k : Nat} (h : k ≤ c.rest.length) :
    (c.forward k).position.offset = c.position.offset + k := by
  induction k with
  | zero => rfl
  | succ k ih =>
    have hpos : 0 < (c.forward k).rest.length := by
      rw [rest_forward, List.length_drop]
      omega
    rw [forward, offset_step hpos, ih (Nat.le_of_succ_le h), Nat.add_assoc]

/-- The number of moves can be read off the offset. -/
theorem forward_inj {i k : Nat} (hi : i ≤ start.rest.length) (hk : k ≤ start.rest.length)
    (h : (start.forward i).position.offset = (start.forward k).position.offset) : i = k := by
  rw [offset_forward hi, offset_forward hk] at h
  omega

theorem reaches_refl (c : TokenCursor τ) : c.Reaches c := ⟨0, Nat.zero_le _, rfl⟩

theorem Reaches.step (h : start.Reaches c) (ht : (Cursor.current c).isSome) :
    start.Reaches c.step := by
  obtain ⟨k, _, rfl⟩ := h
  obtain ⟨t, ht⟩ := Option.isSome_iff_exists.1 ht
  rw [current_forward] at ht
  have hk : k < start.rest.length := (List.getElem?_eq_some_iff.1 ht).1
  exact ⟨k + 1, hk, rfl⟩

theorem Reaches.offset_le (h : start.Reaches c) :
    start.position.offset ≤ c.position.offset := by
  obtain ⟨k, hk, rfl⟩ := h
  rw [offset_forward hk]
  exact Nat.le_add_right _ _

/-- Cursors with one offset have one past, and so they are equal. -/
theorem Reaches.eq_of_offset (hc : start.Reaches c) (hd : start.Reaches d)
    (h : c.position.offset = d.position.offset) : c = d := by
  obtain ⟨i, hi, rfl⟩ := hc
  obtain ⟨k, hk, rfl⟩ := hd
  rw [forward_inj hi hk h]

theorem Reaches.same_iff (hc : start.Reaches c) (hd : start.Reaches d) :
    Cursor.same c d = true ↔ c = d := by
  constructor
  · intro h
    exact hc.eq_of_offset hd (beq_iff_eq.1 h)
  · rintro rfl
    exact beq_self_eq_true _

theorem Reaches.rest_iff (hc : start.Reaches c) (hd : start.Reaches d) :
    c.rest.length = d.rest.length ↔ c = d := by
  refine ⟨fun h => ?_, fun h => by rw [h]⟩
  obtain ⟨i, hi, rfl⟩ := hc
  obtain ⟨k, hk, rfl⟩ := hd
  rw [rest_forward, rest_forward, List.length_drop, List.length_drop] at h
  obtain rfl : i = k := by omega
  rfl

theorem advance_eq {m : Type → Type} [MonadRun m] (h : (Cursor.current c).isSome) :
    (advance c : m (TokenCursor τ)) = pure c.step := by
  obtain ⟨source, rest, position, rule⟩ := c
  cases rest with
  | nil => cases h
  | cons t rest => rfl

variable [DecidableEq τ]

/-- What the cursors of a run from `start` have in common. Nothing is asked of errors. -/
def forwardOnly (σ : Type) (start : TokenCursor τ) : Invariant σ (TokenCursor τ) τ where
  cursor := start.Reaches
  error _ := True
  excused _ _ _ := True
  advance hc ht := by
    rw [advance_eq ht]
    exact .pure ⟨rfl, hc.step ht⟩
  merge _ _ := trivial
  relabel _ _ := trivial
  message _ _ := trivial
  found _ _ _ := trivial
  misplaced _ _ := trivial

end TokenCursor

namespace Grammar

open TokenCursor

variable [DecidableEq τ] [Token τ] {rules : String → Grammar τ} {bound : Nat} {g : Grammar τ}
  {start : TokenCursor τ} {j k : Journal σ}

theorem forwardOnly_admits (start : TokenCursor τ)
    (rules : String → Parser (Run σ) (TokenCursor τ) τ Value) (g : Grammar τ) :
    g.Every ((forwardOnly σ start).Admits bound rules) :=
  Invariant.every_admits _ bound rules (fun _ => trivial) (fun _ _ _ => trivial) g

theorem reaches_of_ok {r : Reply (TokenCursor τ) τ Value}
    (h : (run rules bound g start : Run σ _) j = .ok (r, k)) : start.Reaches r.cursor :=
  ((forwardOnly σ start).run_ok (fun _ name => forwardOnly_admits start _ (rules name))
    (forwardOnly_admits start _ g) (reaches_refl start) h).1

theorem boundSpent_of_error {h : Halt}
    (he : (run rules bound g start : Run σ _) j = .error h) : h = .boundSpent :=
  (forwardOnly σ start).run_error (fun _ name => forwardOnly_admits start _ (rules name))
    (forwardOnly_admits start _ g) (reaches_refl start) he

/-- Spans are as long as their offsets say. -/
theorem length_of_spanned {v : Value} {next : TokenCursor τ}
    (h : (run rules bound (spanned g) start : Run σ _) j = .ok (.ok v next, k)) :
    ∃ w s, v = .spanned w s ∧ s.start = start.position ∧ s.stop = next.position ∧
      s.start.offset + s.length = s.stop.offset := by
  obtain ⟨⟨w, s⟩, hs, rfl⟩ := Parser.map_eq_ok.1 h
  obtain ⟨hg, rfl⟩ := Parser.spanned_eq_ok.1 hs
  have hle : start.position.offset ≤ next.position.offset := (reaches_of_ok hg).offset_le
  exact ⟨w, _, rfl, rfl, rfl, Nat.add_sub_cancel' hle⟩

/-- A traced success reports how many tokens it consumed. -/
theorem consumed_of_traced {name : String} {v : Value} {next : TokenCursor τ}
    (h : (run rules bound (traced g name) start : Run σ _) j = .ok (.ok v next, k)) :
    ∃ events n, k.events = events ++ [.succeeded name n] ∧
      start.position.offset + n = next.position.offset := by
  obtain ⟨i, hg, rfl⟩ := Parser.traced_eq_ok_iff.1 h
  have hle : start.position.offset ≤ next.position.offset := (reaches_of_ok hg).offset_le
  exact ⟨i.events, _, rfl, Nat.add_sub_cancel' hle⟩

/-- A run over tokens in memory moves its cursor forward token by token and never past the end: it
halts only when its bound is spent, and otherwise ends at the cursor that some number of moves
leads to. Offsets therefore never go back, differences of offsets are exact, and cursors of one
run are equal when they are in one place. -/
theorem run_forward (rules : String → Grammar τ) (bound : Nat) (g : Grammar τ)
    (start : TokenCursor τ) (j : Journal σ) :
    (∀ h, (run rules bound g start : Run σ _) j = .error h → h = .boundSpent) ∧
    (∀ r k, (run rules bound g start : Run σ _) j = .ok (r, k) →
      start.Reaches r.cursor ∧ start.position.offset ≤ r.cursor.position.offset) ∧
    (∀ c d, start.Reaches c → start.Reaches d →
      (Cursor.same c d = true ↔ c = d) ∧ (c.rest.length = d.rest.length ↔ c = d)) ∧
    (∀ v next k, (run rules bound (spanned g) start : Run σ _) j = .ok (.ok v next, k) →
      ∃ w s, v = .spanned w s ∧ s.start = start.position ∧ s.stop = next.position ∧
        s.start.offset + s.length = s.stop.offset) ∧
    ∀ name v next k, (run rules bound (traced g name) start : Run σ _) j = .ok (.ok v next, k) →
      ∃ events n, k.events = events ++ [.succeeded name n] ∧
        start.position.offset + n = next.position.offset := by
  refine ⟨fun h he => boundSpent_of_error he, fun r k hr => ?_, fun c d hc hd => ?_, ?_, ?_⟩
  · have hreach : start.Reaches r.cursor := reaches_of_ok hr
    exact ⟨hreach, hreach.offset_le⟩
  · exact ⟨hc.same_iff hd, hc.rest_iff hd⟩
  · intro v next k hv
    exact length_of_spanned hv
  · intro name v next k hv
    exact consumed_of_traced hv

example : ∃ k, (run noRules 8 identifier (TokenCursor.ofText "ab c" 4) : Run Unit _) ⟨(), [], []⟩ =
    .ok (.ok (.text "ab") ((TokenCursor.ofText "ab c" 4).forward 2), k) :=
  ⟨_, rfl⟩

end Grammar

end Descent
