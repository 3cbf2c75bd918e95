import Descent.Proofs.Inversion
import Descent.Proofs.Steady

/-! Runs that do the same and report differently. One run mirrors another when it has the same
answer wherever the other has one, leaves the same source, and appends to its journal what belongs
to the log of the other. What belongs together is any relation of logs that is kept by going on and
holds between reports that have nothing to do with wrappers. The runs may start with different logs,
and the parsers that both of them defer are built in both or in neither. -/
namespace Descent

variable {σ C τ α β γ : Type}

def Event.parser? : Event → Option String
  | entered parser .. => some parser
  | succeeded parser _ => some parser
  | failed parser .. => some parser
  | _ => none

def Event.supplier? : Event → Option Supplier
  | parserBuilt supplier => some supplier
  | _ => none

def Event.Plain (e : Event) : Prop := e.parser? = none ∧ e.supplier? = none

/-- A relation of logs that all runs keep but for their wrappers. The parsers of the suppliers in
`kept` are built by both runs. -/
structure LogRelation where
  rel : List Event → List Event → Prop
  kept : Supplier → Prop
  nil : rel [] []
  append {log log' more more' : List Event} : rel log log' → rel more more' →
    rel (log ++ more) (log' ++ more')
  plain {e : Event} : e.Plain → rel [e] [e]
  built {s : Supplier} : kept s → rel [.parserBuilt s] [.parserBuilt s]

variable {L : LogRelation}

namespace LogRelation

/-- Reports that no wrapper makes belong together. -/
theorem plains {log : List Event} (h : ∀ e ∈ log, e.Plain) : L.rel log log := by
  induction log with
  | nil => exact L.nil
  | cons e log ih =>
    rw [List.forall_mem_cons] at h
    exact L.append (L.plain h.1) (ih h.2)

/-- The same journal but for its events and for parsers that only one of the runs defers. -/
structure Agree (L : LogRelation) (j j' : Journal σ) : Prop where
  source : j.source = j'.source
  built : ∀ s, L.kept s → (s ∈ j.built ↔ s ∈ j'.built)

namespace Agree

variable {j j' : Journal σ} {s : Supplier}

theorem refl (L : LogRelation) (j : Journal σ) : L.Agree j j := ⟨rfl, fun _ _ => Iff.rfl⟩

/-- A parser that both runs defer is built in both or in neither. -/
theorem build (h : L.Agree j j') (hs : L.kept s) (made : List Event) :
    L.Agree (j.build s made) (j'.build s made) := by
  by_cases hbuilt : s ∈ j.built
  · rwa [Journal.build_of_mem hbuilt, Journal.build_of_mem ((h.built s hs).1 hbuilt)]
  · rw [Journal.build_of_notMem hbuilt, Journal.build_of_notMem (mt (h.built s hs).2 hbuilt)]
    refine ⟨h.source, fun t ht => ?_⟩
    rw [List.mem_cons, List.mem_cons, h.built t ht]

theorem build_left (h : L.Agree j j') (hs : ¬L.kept s) (made : List Event) :
    L.Agree (j.build s made) j' := by
  by_cases hbuilt : s ∈ j.built
  · rwa [Journal.build_of_mem hbuilt]
  · rw [Journal.build_of_notMem hbuilt]
    refine ⟨h.source, fun t ht => ?_⟩
    have hother : t ≠ s := fun hts => hs (hts ▸ ht)
    rw [List.mem_cons, or_iff_right hother, h.built t ht]

theorem renew (h : L.Agree j j') (renewed : Supplier → Bool) :
    L.Agree (j.renew renewed) (j'.renew renewed) := by
  refine ⟨h.source, fun s hs => ?_⟩
  rw [Journal.renew, Journal.renew, List.mem_filter, List.mem_filter, h.built s hs]

end Agree

end LogRelation

/-- Where `x` has an answer `y` has the same one, and their logs belong together. This holds from
journals that agree, and the runs leave journals that agree. -/
def Mirrors (L : LogRelation) (x y : Run σ α) : Prop :=
  ∀ ⦃j k : Journal σ⦄ ⦃a : α⦄, x j = .ok (a, k) →
    ∃ log log', L.rel log log' ∧ k.events = j.events ++ log ∧
      ∀ j', L.Agree j j' → ∃ k', y j' = .ok (a, k') ∧ L.Agree k k' ∧
        k'.events = j'.events ++ log'

namespace Mirrors

variable {x y : Run σ α} {f g : α → Run σ β}

theorem pure (a : α) : Mirrors L (Pure.pure a : Run σ α) (Pure.pure a) := by
  rintro j k _ ⟨⟩
  exact ⟨[], [], L.nil, (List.append_nil _).symm, fun j' hj =>
    ⟨j', rfl, hj, (List.append_nil _).symm⟩⟩

theorem halt (h : Halt) (y : Run σ α) : Mirrors L (MonadRun.halt h) y := by
  rintro j k a ⟨⟩

theorem report {e : Event} (h : e.Plain) :
    Mirrors L (MonadRun.report e : Run σ Unit) (MonadRun.report e) := by
  rintro j k _ ⟨⟩
  exact ⟨[e], [e], L.plain h, rfl, fun j' hj => ⟨_, rfl, ⟨hj.source, hj.built⟩, rfl⟩⟩

/-- A run that appends reports of its own to the journal mirrors itself. -/
theorem of_log (h : ∀ source, ∃ a source' log, (∀ e ∈ log, e.Plain) ∧ ∀ events built,
    x ⟨source, events, built⟩ = .ok (a, ⟨source', events ++ log, built⟩)) : Mirrors L x x := by
  intro j k a hx
  obtain ⟨a', source', log, hlog, hlogged⟩ := h j.source
  cases hx.symm.trans (hlogged j.events j.built)
  refine ⟨log, log, L.plains hlog, rfl, ?_⟩
  rintro ⟨_, events, built⟩ ⟨rfl, hbuilt⟩
  exact ⟨_, hlogged events built, ⟨rfl, hbuilt⟩, rfl⟩

theorem bind (h : Mirrors L x y) (hk : ∀ a, Mirrors L (f a) (g a)) :
    Mirrors L (x >>= f) (y >>= g) := by
  intro j l b hrun
  obtain ⟨a, k, hx, hf⟩ := Run.bind_eq_ok.1 hrun
  obtain ⟨log, log', hlog, hk, hy⟩ := h hx
  obtain ⟨more, more', hmore, hl, hg⟩ := ‹∀ a, Mirrors L (f a) (g a)› a hf
  refine ⟨log ++ more, log' ++ more', L.append hlog hmore, ?_, fun j' hj => ?_⟩
  · rw [hl, hk, List.append_assoc]
  · obtain ⟨k', hy, hagree, hk'⟩ := hy j' hj
    obtain ⟨l', hg, hagree', hl'⟩ := hg k' hagree
    refine ⟨l', Run.bind_eq_ok.2 ⟨a, k', hy, hg⟩, hagree', ?_⟩
    rw [hl', hk', List.append_assoc]

theorem ite {p : Prop} [Decidable p] {x' y' : Run σ α} (hx : Mirrors L x y)
    (hy : Mirrors L x' y') : Mirrors L (if p then x else x') (if p then y else y') := by
  split
  · exact hx
  · exact hy

theorem build {s : Supplier} (hs : L.kept s) {made : List Event} (hmade : ∀ e ∈ made, e.Plain) :
    Mirrors L (MonadRun.build s made : Run σ Unit) (MonadRun.build s made) := by
  intro j k _ hx
  rw [Run.build_apply] at hx
  cases hx
  have hlog : L.rel (if s ∈ j.built then [] else .parserBuilt s :: made)
      (if s ∈ j.built then [] else .parserBuilt s :: made) := by
    split
    · exact L.nil
    · exact L.append (L.built hs) (L.plains hmade)
  refine ⟨_, _, hlog, j.events_build s made, fun j' hj =>
    ⟨_, Run.build_apply s made j', hj.build hs made, ?_⟩⟩
  rw [Journal.events_build]
  simp only [hj.built s hs]

/-- What is reported while a parser is built belongs to nothing where the parser stands there
already. -/
theorem built {s : Supplier} (hs : ¬L.kept s) {made : List Event}
    (h : L.rel (.parserBuilt s :: made) []) :
    Mirrors L (MonadRun.build s made : Run σ Unit) (Pure.pure ()) := by
  intro j k _ hx
  rw [Run.build_apply] at hx
  cases hx
  have hlog : L.rel (if s ∈ j.built then [] else .parserBuilt s :: made) [] := by
    split
    · exact L.nil
    · exact h
  exact ⟨_, [], hlog, j.events_build s made, fun j' hj =>
    ⟨j', rfl, hj.build_left hs made, (List.append_nil _).symm⟩⟩

theorem renew (renewed : Supplier → Bool) :
    Mirrors L (MonadRun.renew renewed : Run σ Unit) (MonadRun.renew renewed) := by
  rintro j k _ ⟨⟩
  exact ⟨[], [], L.nil, (List.append_nil _).symm, fun j' hj =>
    ⟨_, rfl, hj.renew renewed, (List.append_nil _).symm⟩⟩

end Mirrors

def Parser.Mirrors (L : LogRelation) (p q : Parser (Run σ) C τ α) : Prop :=
  ∀ c, Descent.Mirrors L (p c) (q c)

/-- Cursors that never go back when they move on, and report nothing of wrappers. Where they
come to does not depend on what has been reported. -/
class Orderly (σ C : Type) {τ : outParam Type} [Cursor C τ] [Advance (Run σ) C] : Prop where
  offset_le {c d : C} {j k : Journal σ} : (advance c : Run σ C) j = .ok (d, k) →
    Cursor.offset c ≤ Cursor.offset d
  mirrors (L : LogRelation) (c : C) : Mirrors L (advance c : Run σ C) (advance c)

instance {σ τ : Type} : Orderly σ (TokenCursor τ) where
  offset_le {c d j k} h := by
    obtain ⟨source, rest, position, rule⟩ := c
    cases rest with
    | nil => cases h
    | cons t rest =>
      cases h
      exact Nat.le_succ _
  mirrors L c := by
    obtain ⟨source, rest, position, rule⟩ := c
    cases rest with
    | nil => exact .halt _ _
    | cons t rest => exact .pure _

namespace Window

theorem plain_fill (w : Window) (offset : Nat) : ∀ e ∈ (w.fill offset).events, e.Plain := by
  unfold fill
  split
  · exact nofun
  · dsimp only
    split
    · exact nofun
    · rename_i failure _ _ _
      cases failure <;> simp [Event.Plain, Event.parser?, Event.supplier?]

theorem plain_lookEvents (w : Window) (encoding : Encoding) (offset : Nat) :
    ∀ e ∈ w.lookEvents encoding offset, e.Plain := by
  have hserved : ∀ e ∈ (w.charAt encoding offset).events, e.Plain := by
    rw [charAt, bytesAt]
    dsimp only
    split
    · exact nofun
    · exact w.plain_fill offset
  rw [lookEvents]
  split
  · exact hserved
  · rw [List.forall_mem_append, List.forall_mem_singleton]
    exact ⟨hserved, rfl, rfl⟩

end Window

namespace WindowCursor

theorem mirrors_fetch (encoding : Encoding) (offset : Nat) :
    Mirrors L (fetch encoding offset) (fetch encoding offset) :=
  .of_log fun w => ⟨(w.look encoding offset).1, (w.look encoding offset).2, _,
    w.plain_lookEvents encoding offset, fun events built =>
      fetch_eq encoding offset ⟨w, events, built⟩⟩

instance : Orderly Window WindowCursor where
  offset_le {c d j k} h := by
    obtain ⟨ahead, position, encoding, rule⟩ := c
    cases ahead with
    | none => cases h
    | some next =>
      obtain ⟨seen, i, -, hnext⟩ := Run.bind_eq_ok.1 h
      cases hnext
      exact Nat.le_add_right _ _
  mirrors L c := by
    obtain ⟨ahead, position, encoding, rule⟩ := c
    cases ahead with
    | none => exact .halt _ _
    | some next => exact (mirrors_fetch encoding _).bind fun _ => .pure _

end WindowCursor

end Descent
