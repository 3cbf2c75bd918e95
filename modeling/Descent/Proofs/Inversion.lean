import Descent.Parser.Diagnosis
import Descent.Parser.Lookahead

/-! Runs and their parts. A sequence goes on from the answer of its first part, and where a
sequence has an answer each of its parts has one. -/
namespace Descent

variable {σ C τ α β : Type}

theorem Run.bind_of_ok {x : Run σ α} {f : α → Run σ β} {j k : Journal σ} {a : α}
    (h : x j = .ok (a, k)) : (x >>= f) j = f a k := by
  change (x j >>= fun a => f a.1 a.2) = _
  rw [h]
  rfl

theorem Run.bind_of_error {x : Run σ α} {f : α → Run σ β} {j : Journal σ} {h : Halt}
    (hx : x j = .error h) : (x >>= f) j = .error h := by
  change (x j >>= fun a => f a.1 a.2) = _
  rw [hx]
  rfl

theorem Run.bind_congr {x y : Run σ α} {j : Journal σ} (h : x j = y j) (f : α → Run σ β) :
    (x >>= f) j = (y >>= f) j := by
  change (x j >>= fun a => f a.1 a.2) = (y j >>= fun a => f a.1 a.2)
  rw [h]

theorem Run.build_apply (supplier : Supplier) (made : List Event) (j : Journal σ) :
    (MonadRun.build supplier made : Run σ Unit) j = .ok ((), j.build supplier made) := rfl

/-- A sequence of runs has an answer when its parts have, the second from where the first left
the journal. -/
theorem Run.bind_eq_ok {x : Run σ α} {f : α → Run σ β} {j : Journal σ} {r : β × Journal σ} :
    (x >>= f) j = .ok r ↔ ∃ a k, x j = .ok (a, k) ∧ f a k = .ok r := by
  change (x j >>= fun a => f a.1 a.2) = _ ↔ _
  cases x j with
  | error h => exact ⟨nofun, fun ⟨_, _, h, _⟩ => nomatch h⟩
  | ok a =>
    obtain ⟨a, k⟩ := a
    constructor
    · intro h
      exact ⟨a, k, rfl, h⟩
    · rintro ⟨_, _, ⟨⟩, h⟩
      exact h

namespace Reply

variable {γ : Type} {r : Reply C τ α} {f : α → β}

@[simp] theorem map_id' (r : Reply C τ α) : r.map (fun v => v) = r := by cases r <;> rfl

@[simp] theorem map_map (r : Reply C τ α) (f : α → β) (g : β → γ) :
    (r.map f).map g = r.map fun v => g (f v) := by cases r <;> rfl

theorem map_eq_ok {v : β} {d : C} : r.map f = .ok v d ↔ ∃ w, r = .ok w d ∧ f w = v := by
  constructor
  · intro h
    cases r with
    | ok w e =>
      cases h
      exact ⟨w, rfl, rfl⟩
    | fail g => cases h
  · rintro ⟨w, rfl, rfl⟩
    rfl

@[simp] theorem map_eq_fail {g : Failure C τ} : r.map f = .fail g ↔ r = .fail g := by
  cases r <;> simp [map]

end Reply

section Reports

variable [Cursor C τ]

def Event.opening (name : String) (c : C) : Event :=
  .entered name (Cursor.position c).line (Cursor.position c).column

/-- The report of a traced parser that began at `c` and ended so. -/
def Reply.closing (name : String) (c : C) : Reply C τ α → Event
  | .ok _ d => .succeeded name (Cursor.offset d - Cursor.offset c)
  | .fail f => .failed name f.error.position.line f.error.position.column
    (Cursor.offset f.cursor != Cursor.offset c)

end Reports

namespace Parser

/-- A deferred parser runs once it is built. -/
theorem deferred_apply (p : Parser (Run σ) C τ α) (supplier : Supplier) (made : List Event) (c : C)
    (j : Journal σ) : deferred p supplier made c j = p c (j.build supplier made) := rfl

section Forward

variable {p : Parser (Run σ) C τ α} {q : α → Parser (Run σ) C τ β} {c d : C} {v : α}
  {f : Failure C τ} {j k : Journal σ}

theorem bind_of_ok (h : p c j = .ok (.ok v d, k)) : bind p q c j = q v d k :=
  Run.bind_of_ok h

theorem bind_of_fail (h : p c j = .ok (.fail f, k)) : bind p q c j = .ok (.fail f, k) :=
  Run.bind_of_ok h

end Forward

/-- Parsers in sequence succeed when both do, the second from where the first ended. -/
theorem bind_eq_ok {p : Parser (Run σ) C τ α} {k : α → Parser (Run σ) C τ β} {c d : C} {v : β}
    {j l : Journal σ} : bind p k c j = .ok (.ok v d, l) ↔
      ∃ w e i, p c j = .ok (.ok w e, i) ∧ k w e i = .ok (.ok v d, l) := by
  unfold bind
  rw [Run.bind_eq_ok]
  constructor
  · rintro ⟨r, i, hp, hk⟩
    cases r with
    | ok w e => exact ⟨w, e, i, hp, hk⟩
    | fail f => cases hk
  · rintro ⟨w, e, i, hp, hk⟩
    exact ⟨.ok w e, i, hp, hk⟩

/-- Parsers in sequence end with the first where it fails, and otherwise with the second. -/
theorem bind_ends_iff {p : Parser (Run σ) C τ α} {k : α → Parser (Run σ) C τ β} {c : C}
    {r : Reply C τ β} {j l : Journal σ} : bind p k c j = .ok (r, l) ↔
      (∃ f, p c j = .ok (.fail f, l) ∧ r = .fail f) ∨
        ∃ w e i, p c j = .ok (.ok w e, i) ∧ k w e i = .ok (r, l) := by
  unfold bind
  rw [Run.bind_eq_ok]
  constructor
  · rintro ⟨⟨w, e⟩ | f, i, hp, hk⟩
    · exact .inr ⟨w, e, i, hp, hk⟩
    · cases hk
      exact .inl ⟨f, hp, rfl⟩
  · rintro (⟨f, hp, rfl⟩ | ⟨w, e, i, hp, hk⟩)
    · exact ⟨.fail f, l, hp, rfl⟩
    · exact ⟨.ok w e, i, hp, hk⟩

theorem map_eq_ok {p : Parser (Run σ) C τ α} {f : α → β} {c d : C} {v : β} {j l : Journal σ} :
    map p f c j = .ok (.ok v d, l) ↔ ∃ w, p c j = .ok (.ok w d, l) ∧ f w = v := by
  rw [map, bind_eq_ok]
  constructor
  · rintro ⟨w, e, i, hp, ⟨⟩⟩
    exact ⟨w, hp, rfl⟩
  · rintro ⟨w, hp, rfl⟩
    exact ⟨w, d, l, hp, rfl⟩

theorem map_ends_iff {p : Parser (Run σ) C τ α} {g : α → β} {c : C} {r : Reply C τ β}
    {j l : Journal σ} : map p g c j = .ok (r, l) ↔ ∃ s, p c j = .ok (s, l) ∧ r = s.map g := by
  rw [map, bind_ends_iff]
  constructor
  · rintro (⟨f, hp, rfl⟩ | ⟨w, e, i, hp, ⟨⟩⟩)
    · exact ⟨.fail f, hp, rfl⟩
    · exact ⟨.ok w e, hp, rfl⟩
  · rintro ⟨⟨w, e⟩ | f, hp, rfl⟩
    · exact .inr ⟨w, e, l, hp, rfl⟩
    · exact .inl ⟨f, hp, rfl⟩

theorem attempt_eq_ok {p : Parser (Run σ) C τ α} {c d : C} {v : α} {j l : Journal σ} :
    attempt p c j = .ok (.ok v d, l) ↔ p c j = .ok (.ok v d, l) := by
  unfold attempt
  rw [Run.bind_eq_ok]
  constructor
  · rintro ⟨_ | f, i, hp, ⟨⟩⟩
    exact hp
  · intro hp
    exact ⟨.ok v d, l, hp, rfl⟩

/-- An attempt fails as the parser inside does, where it started. -/
theorem attempt_eq_fail {p : Parser (Run σ) C τ α} {c : C} {f : Failure C τ} {j l : Journal σ} :
    attempt p c j = .ok (.fail f, l) ↔ ∃ g, p c j = .ok (.fail g, l) ∧ f = g.rewind c := by
  unfold attempt
  rw [Run.bind_eq_ok]
  constructor
  · rintro ⟨_ | g, i, hp, ⟨⟩⟩
    exact ⟨g, hp, rfl⟩
  · rintro ⟨g, hp, rfl⟩
    exact ⟨.fail g, l, hp, rfl⟩

variable [Cursor C τ]

/-- A span begins where its parser began and stops where that ended. -/
theorem spanned_eq_ok {p : Parser (Run σ) C τ α} {c d : C} {v : α × Span} {j l : Journal σ} :
    spanned p c j = .ok (.ok v d, l) ↔
      p c j = .ok (.ok v.1 d, l) ∧ v.2 = ⟨Cursor.position c, Cursor.position d⟩ := by
  rw [spanned]
  simp only [bind_eq_ok, map_eq_ok]
  constructor
  · rintro ⟨_, _, _, ⟨⟩, w, e, i, hp, _, ⟨⟩, rfl⟩
    exact ⟨hp, rfl⟩
  · rintro ⟨hp, hv⟩
    exact ⟨_, c, j, rfl, _, d, l, hp, _, rfl, Prod.ext rfl hv.symm⟩

section Traced

variable {p : Parser (Run σ) C τ α} {name : String} {c : C} {r : Reply C τ α}
  {j k : Journal σ}

theorem traced_eq (p : Parser (Run σ) C τ α) (name : String) (c : C) : traced p name c = (do
    MonadRun.report (.opening name c)
    let r ← p c
    MonadRun.report (r.closing name c)
    return r) := by
  unfold traced
  refine congrArg (MonadRun.report (.opening name c) >>= ·) (funext fun _ => ?_)
  refine congrArg (p c >>= ·) (funext fun r => ?_)
  cases r <;> rfl

/-- A traced parser ends as the parser inside, with a report before it and one after it. -/
theorem traced_eq_ok_iff : traced p name c j = .ok (r, k) ↔
    ∃ i, p c { j with events := j.events ++ [.opening name c] } = .ok (r, i) ∧
      k = { i with events := i.events ++ [r.closing name c] } := by
  rw [traced_eq, Run.bind_eq_ok]
  constructor
  · rintro ⟨_, _, ⟨⟩, h⟩
    obtain ⟨r', i, hp, h⟩ := Run.bind_eq_ok.1 h
    cases h
    exact ⟨i, hp, rfl⟩
  · rintro ⟨i, hp, rfl⟩
    exact ⟨(), _, rfl, Run.bind_eq_ok.2 ⟨r, i, hp, rfl⟩⟩

end Traced

end Parser

end Descent
