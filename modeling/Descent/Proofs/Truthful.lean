import Descent.Proofs.Forward

/-! Errors are truthful. What an error over tokens in memory lists is never empty and names nothing
twice, the error stands at a place that the input has, and a token that it says was found there is
the one that stands there. -/
namespace Descent

variable {σ τ ι : Type}

namespace ParseError

def Listing (l : List ι) : Prop := l ≠ [] ∧ l.Nodup

theorem listing_singleton (i : ι) : Listing [i] := ⟨by simp, by simp⟩

theorem Listing.union [DecidableEq ι] {l m : List ι} (hl : Listing l) :
    Listing (union l m) := by
  obtain ⟨i, hi⟩ := List.exists_mem_of_ne_nil l hl.1
  exact ⟨List.ne_nil_of_mem (mem_union.2 (.inl hi)), nodup_union hl.2⟩

/-- An error that tells the truth about the input from `start` on. -/
inductive Truthful (start : TokenCursor τ) : ParseError τ → Prop where
  | mismatch {k : Nat} {unexpected expected : List (Symbol τ)} (hk : k ≤ start.rest.length)
      (hu : Listing unexpected) (hx : Listing expected)
      (ht : ∀ t, .token t ∈ unexpected → start.rest[k]? = some t) :
      Truthful start (.mismatch (start.forward k).position unexpected expected)
  | explained {k : Nat} {notes : List Note} (hk : k ≤ start.rest.length) (hn : Listing notes) :
      Truthful start (.explained (start.forward k).position notes)

namespace Truthful

variable {start c : TokenCursor τ} {e f : ParseError τ}

/-- Errors are merged only at one offset, which is one place of the input. What both of them list
was found there. -/
theorem merge [DecidableEq τ] (he : Truthful start e) (hf : Truthful start f) :
    Truthful start (e.merge f) := by
  unfold ParseError.merge
  split
  · exact he
  · split
    · exact hf
    · rename_i hlt hgt
      cases he with
      | @explained i notes hi hn =>
        cases hf with
        | explained hk hn' => exact .explained hi hn.union
        | mismatch => exact .explained hi hn
      | @mismatch i u x hi hu hx ht =>
        cases hf with
        | explained hk hn => exact .explained hk hn
        | @mismatch k u' x' hk hu' hx' ht' =>
          have hoffset : (start.forward i).position.offset = (start.forward k).position.offset :=
            Nat.le_antisymm (Nat.le_of_not_lt hlt) (Nat.le_of_not_lt hgt)
          obtain rfl : i = k := TokenCursor.forward_inj hi hk hoffset
          refine .mismatch hi hu.union hx.union fun t hmem => ?_
          rcases mem_union.1 hmem with h | h
          · exact ht t h
          · exact ht' t h

theorem relabel (label : String) (he : Truthful start e) : Truthful start (e.relabel label) := by
  cases he with
  | mismatch hk hu _ ht => exact .mismatch hk hu (listing_singleton _) ht
  | explained hk _ => exact .explained hk (listing_singleton _)

theorem found {u : Symbol τ} (x : Symbol τ) (hc : start.Reaches c)
    (hu : ∀ t, u = .token t → Cursor.current c = some t) :
    Truthful start (.found (Cursor.position c) u x) := by
  obtain ⟨k, hk, rfl⟩ := hc
  refine .mismatch hk (listing_singleton u) (listing_singleton x) fun t ht => ?_
  rw [← TokenCursor.current_forward]
  exact hu t (List.mem_singleton.1 ht).symm

theorem note (n : Note) (hc : start.Reaches c) :
    Truthful start (.explained (Cursor.position c) [n]) := by
  obtain ⟨k, hk, rfl⟩ := hc
  exact .explained hk (listing_singleton n)

end Truthful

/-- Cursors of a run from `start`, and errors that tell the truth about what follows it. -/
def truthful [DecidableEq τ] (σ : Type) (start : TokenCursor τ) :
    Invariant σ (TokenCursor τ) τ where
  cursor := start.Reaches
  error := Truthful start
  excused _ _ _ := True
  advance := (TokenCursor.forwardOnly σ start).advance
  merge := .merge
  relabel := .relabel
  message text hc := .note (.message text) hc
  found := .found
  misplaced hc _ := .note _ hc

def tokens (l : List (Symbol τ)) : List τ :=
  l.filterMap fun
    | .token t => some t
    | _ => none

theorem mem_tokens {l : List (Symbol τ)} {t : τ} : t ∈ tokens l ↔ .token t ∈ l := by
  rw [tokens, List.mem_filterMap]
  constructor
  · rintro ⟨⟨t⟩ | _ | _, hs, h⟩ <;> cases h
    exact hs
  · intro h
    exact ⟨.token t, h, rfl⟩

/-- A list without repetition whose tokens all stand in one place has no two of them. -/
theorem length_tokens_le {l : List (Symbol τ)} (hl : l.Nodup) {found : Option τ}
    (h : ∀ t, .token t ∈ l → found = some t) : (tokens l).length ≤ 1 := by
  have hnodup : (tokens l).Nodup := by
    refine List.Pairwise.filterMap _ ?_ hl
    rintro (_ | _ | _) (_ | _ | _) <;> simp_all
  rcases htokens : tokens l with - | ⟨t, - | ⟨u, more⟩⟩
  · exact Nat.zero_le _
  · exact Nat.le_refl _
  · have ht : found = some t := h t (mem_tokens.1 (by simp [htokens]))
    have hu : found = some u := h u (mem_tokens.1 (by simp [htokens]))
    rw [htokens, ← Option.some.inj (ht.symm.trans hu)] at hnodup
    simp at hnodup

end ParseError

namespace Grammar

open ParseError

variable [DecidableEq τ] [Token τ]

/-- Errors of runs over tokens in memory are well formed and truthful. An error stands where some
number of moves leads to; what it lists is not empty and has nothing twice; and it says of at most
one token that it was found, which is the token there. -/
theorem failure_truthful {rules : String → Grammar τ} {bound : Nat} {g : Grammar τ}
    {start : TokenCursor τ} {j k : Journal σ} {f : Failure (TokenCursor τ) τ}
    (h : (run rules bound g start : Run σ _) j = .ok (.fail f, k))
    (hr : ∀ name, (rules name).Every Plain) (hg : g.Every Plain) :
    ∃ n, n ≤ start.rest.length ∧ f.error.position = (start.forward n).position ∧
      match f.error with
      | .mismatch _ unexpected expected =>
        unexpected ≠ [] ∧ unexpected.Nodup ∧ expected ≠ [] ∧ expected.Nodup ∧
          (tokens unexpected).length ≤ 1 ∧ ∀ t, t ∈ tokens unexpected → start.rest[n]? = some t
      | .explained _ notes => notes ≠ [] ∧ notes.Nodup := by
  have hadmits (rules : String → Parser (Run σ) (TokenCursor τ) τ Value) {g : Grammar τ}
      (hg : g.Every Plain) : g.Every ((truthful σ start).Admits bound rules) :=
    Likeness.every_admits_of_plain _ bound rules (fun _ _ _ => trivial) hg
  have htrue : Truthful start f.error :=
    ((truthful σ start).run_ok (fun _ name => hadmits _ (hr name)) (hadmits _ hg)
      (TokenCursor.reaches_refl start) h).2 f rfl
  cases hf : f.error with
  | mismatch p u x =>
    rw [hf] at htrue
    cases htrue with
    | @mismatch n _ _ hn hu hx ht =>
      refine ⟨n, hn, rfl, hu.1, hu.2, hx.1, hx.2, length_tokens_le hu.2 ht, fun t hmem => ?_⟩
      exact ht t (mem_tokens.1 hmem)
  | explained p notes =>
    rw [hf] at htrue
    cases htrue with
    | @explained n _ hn hnotes => exact ⟨n, hn, rfl, hnotes.1, hnotes.2⟩

/-- Where an even number was wanted and 3 found, the error stands at the 3. -/
theorem failure_truthful_odd :
    ∃ f k, (run noRules 4
        (orElse (satisfy .integer (· % 2 == 0) "even") (satisfy .integer (· < 0) "negative"))
        (TokenCursor.ofList [3] TokenCursor.row) : Run Unit _) ⟨(), [], []⟩ = .ok (.fail f, k) ∧
      ∃ n, n ≤ 1 ∧ f.error.position =
        ((TokenCursor.ofList [(3 : Int)] TokenCursor.row).forward n).position := by
  have hrun : ∃ f k, (run noRules 4
        (orElse (satisfy .integer (· % 2 == 0) "even") (satisfy .integer (· < 0) "negative"))
        (TokenCursor.ofList [3] TokenCursor.row) : Run Unit _) ⟨(), [], []⟩ = .ok (.fail f, k) :=
    ⟨_, _, rfl⟩
  obtain ⟨f, k, h⟩ := hrun
  obtain ⟨n, hn, hp, _⟩ :=
    failure_truthful h (fun _ => trivial) ⟨trivial, trivial, trivial⟩
  exact ⟨f, k, h, n, hn, hp⟩

end Grammar

end Descent
