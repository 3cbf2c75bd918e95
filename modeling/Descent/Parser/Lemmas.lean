import Descent.Parser.Lexeme

/-! How parsers in sequence and their values can be regrouped. -/
namespace Descent.Parser

variable {m : Type → Type} {C τ α β γ : Type} [MonadRun m] [LawfulMonad m]

theorem bind_bind (p : Parser m C τ α) (k : α → Parser m C τ β) (l : β → Parser m C τ γ) :
    bind (bind p k) l = bind p fun v => bind (k v) l := by
  funext c
  simp only [bind, LawfulMonad.bind_assoc]
  congr 1
  funext r
  cases r <;> simp

@[simp] theorem pure_bind (v : α) (k : α → Parser m C τ β) : bind (pure v) k = k v := by
  funext c
  simp [bind, pure]

theorem map_map (p : Parser m C τ α) (f : α → β) (g : β → γ) :
    map (map p f) g = map p fun v => g (f v) := by
  simp [map, bind_bind]

theorem bind_map (p : Parser m C τ α) (f : α → β) (k : β → Parser m C τ γ) :
    bind (map p f) k = bind p fun v => k (f v) := by
  simp [map, bind_bind]

theorem map_bind (p : Parser m C τ α) (k : α → Parser m C τ β) (f : β → γ) :
    map (bind p k) f = bind p fun v => map (k v) f := by
  simp [map, bind_bind]

theorem keepRight_map (p : Parser m C τ α) (f : α → β) (q : Parser m C τ γ) :
    keepRight (map p f) q = keepRight p q :=
  bind_map p f fun _ => q

variable [Cursor C τ] [Advance m C]

theorem accept_map (pick : τ → Option α) (f : α → β) (label : String) :
    accept (m := m) (C := C) (fun t => (pick t).map f) label = map (accept pick label) f := by
  funext c
  simp only [accept, map, bind, pure]
  cases Cursor.current c with
  | none => simp
  | some t => cases h : pick t <;> simp [h]

end Descent.Parser
