import Descent.Reply
import Descent.Token

/-! Parsers, the ones that read at most one token, and parsers in sequence. -/
namespace Descent

abbrev Parser (m : Type → Type) (C τ α : Type) := C → m (Reply C τ α)

namespace Parser

variable {m : Type → Type} {C τ α β γ : Type} [MonadRun m]

def pure (v : α) : Parser m C τ α := fun c => return .ok v c

def bind (p : Parser m C τ α) (k : α → Parser m C τ β) : Parser m C τ β := fun c => do
  match ← p c with
  | .ok v next => k v next
  | .fail f => return .fail f

def map (p : Parser m C τ α) (f : α → β) : Parser m C τ β := bind p fun v => pure (f v)

def both (p : Parser m C τ α) (q : Parser m C τ β) : Parser m C τ (α × β) :=
  bind p fun v => map q (v, ·)

def keepRight (p : Parser m C τ α) (q : Parser m C τ β) : Parser m C τ β := bind p fun _ => q

def keepLeft (p : Parser m C τ α) (q : Parser m C τ β) : Parser m C τ α :=
  bind p fun v => map q fun _ => v

def between (opening : Parser m C τ β) (p : Parser m C τ α) (closing : Parser m C τ γ) :
    Parser m C τ α :=
  keepRight opening (keepLeft p closing)

def count (p : Parser m C τ α) : Nat → Parser m C τ (List α)
  | 0 => pure []
  | n + 1 => bind p fun v => map (count p n) (v :: ·)

def raise (error : ParseError τ) : Parser m C τ α := fun c => return .fail ⟨error, c⟩

variable [Cursor C τ]

def fail (text : String) : Parser m C τ α := fun c =>
  return .fail ⟨.message (Cursor.position c) text, c⟩

def position : Parser m C τ Position := fun c => return .ok (Cursor.position c) c

def level : Parser m C τ Level := fun c => return .ok (Cursor.level c) c

def spanned (p : Parser m C τ α) : Parser m C τ (α × Span) :=
  bind position fun start => bind p fun v => map position fun stop => (v, ⟨start, stop⟩)

def endOfInput : Parser m C τ Unit := fun c => do
  match Cursor.current c with
  | none => return .ok () c
  | some t => return .fail ⟨.found (Cursor.position c) (.token t) .endOfInput, c⟩

variable [Advance m C]

/-- Reads one token that `pick` has a value for. Every other token, and the end of the input, is
left where it is and reported with `label` as what was expected. -/
def accept (pick : τ → Option α) (label : String) : Parser m C τ α := fun c => do
  match Cursor.current c with
  | none => return .fail ⟨.found (Cursor.position c) .endOfInput (.label label), c⟩
  | some t =>
    match pick t with
    | none => return .fail ⟨.found (Cursor.position c) (.token t) (.label label), c⟩
    | some v => return .ok v (← advance c)

def satisfy (test : τ → Bool) (label : String) : Parser m C τ τ :=
  accept (Option.guard test) label

def token [Token τ] [DecidableEq τ] (t : τ) : Parser m C τ τ := satisfy (· == t) (Token.quoted t)

def anyToken : Parser m C τ τ := accept some "any token"

end Parser

end Descent
