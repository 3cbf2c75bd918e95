import Descent.Proofs.Forward
import Descent.Proofs.Success

/-! Reading tokens in memory. Between two cursors stands the text that was read to come from the
one to the other. Parsers of single tokens are sure to read what they can. And whatever parser has
succeeded, there is a text between its cursors, which the rules here tell of. -/
namespace Descent

variable {σ τ α β : Type}

namespace TokenCursor

structure Passes (c : TokenCursor τ) (text : List τ) (d : TokenCursor τ) : Prop where
  rest_eq : c.rest = text ++ d.rest
  eq_forward : d = c.forward text.length

variable {c d e : TokenCursor τ} {text more : List τ} {t : τ}

theorem forward_add (c : TokenCursor τ) (i k : Nat) :
    c.forward (i + k) = (c.forward i).forward k := by
  induction k with
  | zero => rfl
  | succ k ih => rw [← Nat.add_assoc, forward, ih, forward]

theorem exists_passes (h : c.rest = text ++ more) : ∃ d, c.Passes text d ∧ d.rest = more := by
  have hrest : (c.forward text.length).rest = more := by rw [rest_forward, h, List.drop_left]
  exact ⟨_, ⟨by rw [hrest, h], rfl⟩, hrest⟩

namespace Passes

theorem refl (c : TokenCursor τ) : c.Passes [] c := ⟨rfl, rfl⟩

theorem trans (h : c.Passes text d) (h' : d.Passes more e) : c.Passes (text ++ more) e := by
  constructor
  · rw [h.rest_eq, h'.rest_eq, List.append_assoc]
  · rw [List.length_append, forward_add, ← h.eq_forward]
    exact h'.eq_forward

theorem current_eq (h : c.Passes (t :: text) d) : Cursor.current c = some t := by
  change c.rest.head? = _
  rw [h.rest_eq]
  rfl

theorem isEnd_eq (h : c.Passes (t :: text) d) : Cursor.isEnd c = false := by
  rw [Cursor.isEnd, h.current_eq]
  rfl

theorem tail (h : c.Passes (t :: text) d) : c.step.Passes text d := by
  constructor
  · rw [rest_step, h.rest_eq]
    rfl
  · rw [h.eq_forward, List.length_cons, Nat.add_comm, forward_add]
    rfl

theorem step_eq (h : c.Passes [t] d) : d = c.step := h.eq_forward

theorem eq_nil (h : c.Passes [] d) : d = c := h.eq_forward

theorem rule_eq (h : c.Passes text d) : d.rule = c.rule := by
  rw [h.eq_forward, rule_forward]

theorem rest_lt {n : Nat} (h : c.Passes text d) (hn : c.rest.length < n) : d.rest.length < n := by
  rw [h.rest_eq, List.length_append] at hn
  exact Nat.lt_of_le_of_lt (Nat.le_add_left _ _) hn

theorem text_lt {n : Nat} (h : c.Passes text d) (hn : c.rest.length < n) : text.length < n := by
  rw [h.rest_eq, List.length_append] at hn
  exact Nat.lt_of_le_of_lt (Nat.le_add_right _ _) hn

/-- A text has two parts when there is a cursor between them. -/
theorem split (h : c.Passes (text ++ more) e) : ∃ d, c.Passes text d ∧ d.Passes more e := by
  rw [Passes.eq_forward h]
  obtain ⟨d, hd, hrest⟩ := exists_passes (h.rest_eq.trans (List.append_assoc _ _ _))
  refine ⟨d, hd, ?_, ?_⟩
  · rw [hrest, ← h.eq_forward]
  · rw [List.length_append, forward_add, ← hd.eq_forward]

theorem uncons (h : c.Passes (t :: text) e) : ∃ d, c.Passes [t] d ∧ d.Passes text e :=
  split (show c.Passes ([t] ++ text) e from h)

end Passes

end TokenCursor

namespace Parser

variable {c d : TokenCursor τ} {text : List τ} {pick : τ → Option α} {label : String}

section Giving

theorem gives_accept {t : τ} {v : α} (h : c.Passes [t] d) (hp : pick t = some v)
    (label : String) : Gives (accept pick label : Parser (Run σ) _ τ α) c v d := by
  intro j
  refine ⟨j, ?_⟩
  have hc := h.current_eq
  simp only [accept, hc, hp]
  rw [TokenCursor.advance_eq (by rw [hc]; rfl), h.step_eq]
  rfl

/-- Tokens are read for as long as there is a value for them. -/
theorem gives_repeated_accept {vs : List α} {n : Nat} (h : c.Passes text d)
    (hp : text.map pick = vs.map some) (hd : ∀ t, Cursor.current d = some t → pick t = none)
    (hn : text.length < n) :
    Gives (repeated false (accept pick label) n : Parser (Run σ) _ τ (List α)) c vs d := by
  obtain ⟨n, rfl⟩ := Nat.exists_eq_add_one.2 (Nat.zero_lt_of_lt hn)
  induction text generalizing c vs n with
  | nil =>
    obtain rfl : vs = [] := List.map_eq_nil_iff.1 hp.symm
    obtain rfl := h.eq_nil
    exact (refuses_accept hd label).repeated false n
  | cons t text ih =>
    rcases vs with _ | ⟨v, vs⟩
    · cases hp
    · obtain ⟨hv, hvs⟩ := List.cons.inj hp
      have hlt : text.length < n := Nat.lt_of_succ_lt_succ hn
      obtain ⟨n, rfl⟩ := Nat.exists_eq_add_one.2 (Nat.zero_lt_of_lt hlt)
      obtain ⟨e, ht, htail⟩ := h.uncons
      exact (gives_accept ht hv label).repeated (ih htail hvs n hlt)

end Giving

section Reading

/-- Whenever the parser succeeds, it has read a text that `P` relates to its value. -/
def Reads (p : Parser (Run σ) (TokenCursor τ) τ α) (P : α → List τ → Prop) : Prop :=
  ∀ ⦃c d : TokenCursor τ⦄ ⦃v : α⦄ ⦃j l : Journal σ⦄, p c j = .ok (.ok v d, l) →
    ∃ text, P v text ∧ c.Passes text d

/-- Values in a list are related to a text when they are related to its parts in turn. -/
inductive InTurn (P : α → List τ → Prop) : List α → List τ → Prop where
  | nil : InTurn P [] []
  | cons {v : α} {vs : List α} {text more : List τ} (hv : P v text) (h : InTurn P vs more) :
    InTurn P (v :: vs) (text ++ more)

theorem InTurn.of_tokens {Q : τ → Prop} {vs text : List τ}
    (h : InTurn (fun v text => text = [v] ∧ Q v) vs text) : text = vs ∧ ∀ v ∈ vs, Q v := by
  induction h with
  | nil => exact ⟨rfl, nofun⟩
  | cons hv _ ih =>
    obtain ⟨rfl, hv⟩ := hv
    obtain ⟨rfl, hvs⟩ := ih
    exact ⟨rfl, List.forall_mem_cons.2 ⟨hv, hvs⟩⟩

variable {p q : Parser (Run σ) (TokenCursor τ) τ α} {P Q : α → List τ → Prop}

theorem Reads.mono (hp : Reads p P) (h : ∀ v text, P v text → Q v text) : Reads p Q := by
  intro c d v j l hok
  obtain ⟨text, ht, hpass⟩ := hp hok
  exact ⟨text, h v text ht, hpass⟩

theorem Reads.deferred (hp : Reads p P) (supplier : Supplier) (made : List Event) :
    Reads (deferred p supplier made) P := by
  intro c d v j l hok
  rw [deferred_apply] at hok
  exact hp hok

theorem reads_accept (pick : τ → Option α) (label : String) :
    Reads (accept pick label : Parser (Run σ) _ τ α)
      fun v text => ∃ t, text = [t] ∧ pick t = some v := by
  intro c d v j l h
  unfold accept at h
  cases hc : Cursor.current c with
  | none =>
    simp only [hc] at h
    cases h
  | some t =>
    cases hp : pick t with
    | none =>
      simp only [hc, hp] at h
      cases h
    | some w =>
      simp only [hc, hp] at h
      rw [TokenCursor.advance_eq (by rw [hc]; rfl)] at h
      cases h
      have hrest : c.rest = [t] ++ c.rest.tail := (List.cons_head?_tail hc).symm
      obtain ⟨d, hd, -⟩ := TokenCursor.exists_passes hrest
      exact ⟨[t], ⟨t, rfl, hp⟩, hd.step_eq ▸ hd⟩

theorem Reads.bind {k : α → Parser (Run σ) (TokenCursor τ) τ β} {Q : α → β → List τ → Prop}
    (hp : Reads p P) (hk : ∀ v, Reads (k v) (Q v)) :
    Reads (bind p k)
      fun w text => ∃ v first second, text = first ++ second ∧ P v first ∧ Q v w second := by
  intro c e w j l h
  obtain ⟨v, d, i, hv, hw⟩ := bind_eq_ok.1 h
  obtain ⟨first, hfirst, hcd⟩ := hp hv
  obtain ⟨second, hsecond, hde⟩ := hk v hw
  exact ⟨_, ⟨v, first, second, rfl, hfirst, hsecond⟩, hcd.trans hde⟩

theorem Reads.map (hp : Reads p P) (f : α → β) :
    Reads (map p f) fun w text => ∃ v, f v = w ∧ P v text := by
  intro c d w j l h
  obtain ⟨v, hv, rfl⟩ := map_eq_ok.1 h
  obtain ⟨text, ht, hcd⟩ := hp hv
  exact ⟨text, ⟨v, rfl, ht⟩, hcd⟩

/-- Whichever alternative succeeded, it ran where the first one started. -/
theorem Reads.orElse [DecidableEq τ] (hp : Reads p P) (hq : Reads q P) :
    Reads (orElse p q) P := by
  intro c d v j l h
  obtain ⟨r, i, hr, h⟩ := Run.bind_eq_ok.1 h
  rcases r with ⟨w, e⟩ | f
  · cases h
    exact hp hr
  · dsimp only at h
    split at h
    · cases h
    · obtain ⟨r, i, hr, h⟩ := Run.bind_eq_ok.1 h
      rcases r with ⟨w, e⟩ | g
      · cases h
        exact hq hr
      · cases h

/-- A run of items that succeeds read one item after another. -/
theorem cons_eq_ok {x : Run σ (Reply (TokenCursor τ) τ (List α))} {v : α} {vs : List α}
    {d : TokenCursor τ} {j l : Journal σ}
    (h : (do return (← x).map (v :: ·) : Run σ _) j = .ok (.ok vs d, l)) :
    ∃ ws, vs = v :: ws ∧ x j = .ok (.ok ws d, l) := by
  obtain ⟨r, i, hr, h⟩ := Run.bind_eq_ok.1 h
  rcases r with ⟨ws, e⟩ | f
  · cases h
    exact ⟨ws, rfl, hr⟩
  · cases h

theorem Reads.repeated (hp : Reads p P) (strict : Bool) (n : Nat) :
    Reads (repeated strict p n) (InTurn P) := by
  induction n with
  | zero => exact fun _ _ _ _ _ h => nomatch h
  | succ n ih =>
    intro c d vs j l h
    obtain ⟨r, i, hr, h⟩ := Run.bind_eq_ok.1 h
    rcases r with ⟨v, e⟩ | f
    · dsimp only at h
      split at h
      · cases h
      · obtain ⟨ws, rfl, hws⟩ := cons_eq_ok h
        obtain ⟨text, ht, hce⟩ := hp hr
        obtain ⟨more, hmore, hed⟩ := ih hws
        exact ⟨_, .cons ht hmore, hce.trans hed⟩
    · dsimp only at h
      split at h
      · cases h
      · cases h
        exact ⟨[], .nil, .refl c⟩

variable {separator : Parser (Run σ) (TokenCursor τ) τ β} {S : β → List τ → Prop}

theorem Reads.sepRest (hp : Reads p P) (hs : Reads separator S) (n : Nat) :
    Reads (sepRest p separator n)
      (InTurn fun v text => ∃ w first second, text = first ++ second ∧ S w first ∧ P v second) := by
  induction n with
  | zero => exact fun _ _ _ _ _ h => nomatch h
  | succ n ih =>
    intro c d vs j l h
    obtain ⟨r, i, hr, h⟩ := Run.bind_eq_ok.1 h
    rcases r with ⟨w, e⟩ | f
    · obtain ⟨r, k, hr', h⟩ := Run.bind_eq_ok.1 h
      rcases r with ⟨v, e'⟩ | f
      · obtain ⟨ws, rfl, hws⟩ := cons_eq_ok h
        obtain ⟨first, hfirst, hce⟩ := hs hr
        obtain ⟨second, hsecond, hee⟩ := hp hr'
        obtain ⟨more, hmore, hed⟩ := ih hws
        exact ⟨_, .cons ⟨w, first, second, rfl, hfirst, hsecond⟩ hmore,
          (hce.trans hee).trans hed⟩
      · dsimp only at h
        split at h
        · cases h
        · cases h
          exact ⟨[], .nil, .refl c⟩
    · dsimp only at h
      split at h
      · cases h
      · cases h
        exact ⟨[], .nil, .refl c⟩

/-- Items with separators between them: none, or a first one and others that are led by one. -/
theorem Reads.sepBy (hp : Reads p P) (hs : Reads separator S) (atLeastOne : Bool) (n : Nat) :
    Reads (sepBy atLeastOne p separator n) fun vs text => vs = [] ∧ text = [] ∨
      ∃ v ws first second, vs = v :: ws ∧ text = first ++ second ∧ P v first ∧
        InTurn (fun v text => ∃ w first second, text = first ++ second ∧ S w first ∧ P v second)
          ws second := by
  intro c d vs j l h
  obtain ⟨r, i, hr, h⟩ := Run.bind_eq_ok.1 h
  rcases r with ⟨v, e⟩ | f
  · obtain ⟨ws, rfl, hws⟩ := cons_eq_ok h
    obtain ⟨first, hfirst, hce⟩ := hp hr
    obtain ⟨second, hsecond, hed⟩ := hp.sepRest hs n hws
    exact ⟨_, .inr ⟨v, ws, first, second, rfl, rfl, hfirst, hsecond⟩, hce.trans hed⟩
  · dsimp only at h
    split at h
    · cases h
    · cases h
      exact ⟨[], .inl ⟨rfl, rfl⟩, .refl c⟩

end Reading

end Parser

end Descent
