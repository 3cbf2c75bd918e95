import Descent.Parser.Basic

/-! Parsers that return to where they started. -/
namespace Descent.Parser

variable {m : Type → Type} {C τ α : Type} [MonadRun m]

def attempt (p : Parser m C τ α) : Parser m C τ α := fun c => do
  match ← p c with
  | .ok v next => return .ok v next
  | .fail f => return .fail (f.rewind c)

def lookAhead (p : Parser m C τ α) : Parser m C τ α := fun c => do
  match ← p c with
  | .ok v _ => return .ok v c
  | .fail f => return .fail f

variable [Cursor C τ]

/-- Succeeds where `p` fails; nothing is read in either case. -/
def notFollowedBy (p : Parser m C τ α) : Parser m C τ Unit := fun c => do
  match ← p c with
  | .ok _ _ => return .fail ⟨.message (Cursor.position c) "unexpected match", c⟩
  | .fail _ => return .ok () c

/-- Refuses the values of `p` that fail a test, with a message where `p` started. -/
def ensure (p : Parser m C τ α) (test : α → Bool) (reason : α → String) : Parser m C τ α :=
  fun c => do
    match ← p c with
    | .ok v next =>
      if test v then return .ok v next
      else return .fail ⟨.message (Cursor.position c) (reason v), c⟩
    | .fail f => return .fail f

end Descent.Parser
