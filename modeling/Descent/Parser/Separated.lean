import Descent.Parser.Basic

/-! Lists of items with separators: between the items, after each item, or between them with one
more allowed at the end. The bound limits how many items are tried. -/
namespace Descent.Parser

variable {m : Type → Type} {C τ α β : Type} [MonadRun m] [Cursor C τ]

/-- The items after a first one, each led by a separator. The list ends before a separator that
fails, or whose item fails, with nothing consumed since the last item. -/
def sepRest (item : Parser m C τ α) (separator : Parser m C τ β) : Nat → Parser m C τ (List α)
  | 0, _ => MonadRun.halt .boundSpent
  | bound + 1, c => do
    match ← separator c with
    | .fail f => if f.consumedSince c then return .fail f else return .ok [] c
    | .ok _ afterSeparator =>
      match ← item afterSeparator with
      | .fail f => if f.consumedSince c then return .fail f else return .ok [] c
      | .ok v next => return (← sepRest item separator bound next).map (v :: ·)

def sepBy (atLeastOne : Bool) (item : Parser m C τ α) (separator : Parser m C τ β) (bound : Nat) :
    Parser m C τ (List α) := fun c => do
  match ← item c with
  | .fail f => if atLeastOne || f.consumedSince c then return .fail f else return .ok [] c
  | .ok v next => return (← sepRest item separator bound next).map (v :: ·)

/-- Items with a separator after each. A separator that is missing is a failure. -/
def endBy (atLeastOne : Bool) (item : Parser m C τ α) (separator : Parser m C τ β) :
    Nat → Parser m C τ (List α)
  | 0, _ => MonadRun.halt .boundSpent
  | bound + 1, c => do
    match ← item c with
    | .fail f => if f.consumedSince c || atLeastOne then return .fail f else return .ok [] c
    | .ok v afterItem =>
      match ← separator afterItem with
      | .fail f => return .fail f
      | .ok _ next => return (← endBy false item separator bound next).map (v :: ·)

def sepEndBy (atLeastOne : Bool) (item : Parser m C τ α) (separator : Parser m C τ β) :
    Nat → Parser m C τ (List α)
  | 0, _ => MonadRun.halt .boundSpent
  | bound + 1, c => do
    match ← item c with
    | .fail f => if f.consumedSince c || atLeastOne then return .fail f else return .ok [] c
    | .ok v afterItem =>
      match ← separator afterItem with
      | .fail f => if f.consumedSince afterItem then return .fail f else return .ok [v] afterItem
      | .ok _ next => return (← sepEndBy false item separator bound next).map (v :: ·)

end Descent.Parser
