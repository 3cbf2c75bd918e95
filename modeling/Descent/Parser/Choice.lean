import Descent.Parser.Basic

/-! Alternatives. A later alternative is tried only where the earlier ones failed without consuming
input, and the failures of all that were tried are merged. -/
namespace Descent

def Failure.after {C τ : Type} [Cursor C τ] [DecidableEq τ] (f : Failure C τ) :
    Option (Failure C τ) → Failure C τ
  | none => f
  | some previous => previous.merge f

namespace Parser

variable {m : Type → Type} {C τ α : Type} [MonadRun m] [Cursor C τ]

def optional (p : Parser m C τ α) : Parser m C τ (Option α) := fun c => do
  match ← p c with
  | .ok v next => return .ok (some v) next
  | .fail f => if f.consumedSince c then return .fail f else return .ok none c

variable [DecidableEq τ]

def orElse (p q : Parser m C τ α) : Parser m C τ α := fun c => do
  match ← p c with
  | .ok v next => return .ok v next
  | .fail f =>
    if f.consumedSince c then return .fail f
    else
      match ← q c with
      | .ok v next => return .ok v next
      | .fail g => return .fail (f.merge g)

def choiceAfter (failed : Option (Failure C τ)) : List (Parser m C τ α) → Parser m C τ α
  | [], c =>
    return .fail (failed.getD ⟨.message (Cursor.position c) "no alternatives to choose from", c⟩)
  | p :: more, c => do
    match ← p c with
    | .ok v next => return .ok v next
    | .fail f =>
      if f.consumedSince c then return .fail f
      else choiceAfter (some (f.after failed)) more c

/-- The first alternative that succeeds. A failure that consumed input is final, and is returned
as it is. -/
def choice (alternatives : List (Parser m C τ α)) : Parser m C τ α := choiceAfter none alternatives

end Parser

end Descent
