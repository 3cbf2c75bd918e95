import Descent.Layout.Guard

/-! Items that all stand to one level in the same relation. -/
namespace Descent.Parser

variable {m : Type → Type} {C τ α γ : Type} [MonadRun m] [Cursor C τ]

def endItems (atLeastOne : Bool) (f : Failure C τ) (c : C) : Reply C τ (List α) :=
  if atLeastOne then .fail f else .ok [] c

/-- Items whose first tokens stand to the reference as asked. The run ends at the end of the
input, before a token at another level, and where an item fails without consuming. -/
def itemsAt (reference : Level) (relation : Relation) (blanks : Parser m C τ γ)
    (item : Parser m C τ α) : (atLeastOne : Bool) → Nat → Parser m C τ (List α)
  | _, 0, _ => MonadRun.halt .boundSpent
  | atLeastOne, bound + 1, c => do
    match ← blanks c with
    | .fail f => return .fail f
    | .ok _ line =>
      let misplaced := indentationFailure line relation reference
      if Cursor.isEnd line then
        match ← item line with
        | .fail f => return endItems atLeastOne f c
        | .ok _ _ => return endItems atLeastOne misplaced c
      else if relation.satisfies reference (Cursor.level line) then
        match ← item line with
        | .ok v next =>
          return (← itemsAt reference relation blanks item false bound next).map (v :: ·)
        | .fail f =>
          if f.consumedSince line then return .fail f else return endItems atLeastOne f c
      else return endItems atLeastOne misplaced c

end Descent.Parser
