import Descent.Proofs.Repetition.Rounds

/-! Items on lines of their own, as blocks and folds read them. The blanks in front of an item
belong to it, and those behind the last item to none. -/
namespace Descent.Parser

variable {σ C τ α β γ : Type} [Cursor C τ]

/-- What comes after the question for the level is given the level in front of the cursor. -/
@[simp] theorem bind_level (k : Level → Parser (Run σ) C τ α) (c : C) :
    bind level k c = k (Cursor.level c) c := rfl

/-- From the one cursor to the other the items `vs` are read in turn. In front of each of them
blanks are skipped, and lead to a token whose level fits. -/
inductive Lines (blanks : Parser (Run σ) C τ γ) (item : Parser (Run σ) C τ β)
    (fits : Level → Prop) : C → Journal σ → List β → C → Journal σ → Prop where
  | nil {c : C} {j : Journal σ} : Lines blanks item fits c j [] c j
  | cons {c line d e : C} {u : γ} {v : β} {vs : List β} {j k l m : Journal σ}
      (hb : blanks c j = .ok (.ok u line, k)) (hend : Cursor.isEnd line = false)
      (hfits : fits (Cursor.level line)) (hi : item line k = .ok (.ok v d, l))
      (h : Lines blanks item fits d l vs e m) : Lines blanks item fits c j (v :: vs) e m

/-- A head on a token at the level `reference`, and behind it items on lines of their own. -/
def Headed (blanks : Parser (Run σ) C τ γ) (head : Parser (Run σ) C τ α)
    (item : Parser (Run σ) C τ β) (fits : Level → Prop) (c : C) (j : Journal σ)
    (reference : Level) (h : α) (vs : List β) (e : C) (i : Journal σ) : Prop :=
  ∃ u first k d l, blanks c j = .ok (.ok u first, k) ∧ Cursor.level first = reference ∧
    head first k = .ok (.ok h d, l) ∧ Lines blanks item fits d l vs e i

variable {blanks : Parser (Run σ) C τ γ} {item : Parser (Run σ) C τ β} {fits : Level → Prop}
  {c e : C} {v : β} {vs : List β} {j m : Journal σ}

theorem lines_nil_iff : Lines blanks item fits c j [] e m ↔ e = c ∧ m = j := by
  constructor
  · rintro ⟨⟩
    exact ⟨rfl, rfl⟩
  · rintro ⟨rfl, rfl⟩
    exact .nil

theorem lines_cons_iff : Lines blanks item fits c j (v :: vs) e m ↔
    ∃ u line k d l, blanks c j = .ok (.ok u line, k) ∧ Cursor.isEnd line = false ∧
      fits (Cursor.level line) ∧ item line k = .ok (.ok v d, l) ∧
      Lines blanks item fits d l vs e m := by
  constructor
  · rintro (_ | ⟨hb, hend, hfits, hi, h⟩)
    exact ⟨_, _, _, _, _, hb, hend, hfits, hi, h⟩
  · rintro ⟨u, line, k, d, l, hb, hend, hfits, hi, h⟩
    exact .cons hb hend hfits hi h

theorem Lines.mono {fits' : Level → Prop} (h : Lines blanks item fits c j vs e m)
    (hfits : ∀ L, fits L → fits' L) : Lines blanks item fits' c j vs e m := by
  induction h with
  | nil => exact .nil
  | cons hb hend hL hi _ ih => exact .cons hb hend (hfits _ hL) hi ih

def OnLine (blanks : Parser (Run σ) C τ γ) (item : Parser (Run σ) C τ β) (fits : Level → Prop)
    (c : C) (j : Journal σ) (v : β) (d : C) (l : Journal σ) : Prop :=
  ∃ u line k, blanks c j = .ok (.ok u line, k) ∧ Cursor.isEnd line = false ∧
    fits (Cursor.level line) ∧ item line k = .ok (.ok v d, l)

/-- Lines are the rounds of a loop that reads one of them after the other. -/
theorem lines_iff_rounds :
    Lines blanks item fits c j vs e m ↔ Rounds (OnLine blanks item fits) c j vs e m := by
  constructor
  · intro h
    induction h with
    | nil => exact .nil
    | cons hb hend hfits hi _ ih => exact .cons ⟨_, _, _, hb, hend, hfits, hi⟩ ih
  · intro h
    induction h with
    | nil => exact .nil
    | cons hv _ ih =>
      obtain ⟨_, _, _, hb, hend, hfits, hi⟩ := hv
      exact .cons hb hend hfits hi ih

end Descent.Parser
