import Descent.Layout.Guard

/-! Blocks: a head, and items on the lines that are indented further than the head's line. -/
namespace Descent.Parser

variable {m : Type → Type} {C τ α β γ : Type} [MonadRun m] [Cursor C τ]

/-- The failure of a block that needs an item and has none at `line`: at the end of the input the
item's own failure if it has one, and otherwise an indentation that is too small. -/
def missingItem (item : Parser m C τ β) (reference : Level) (line : C) : m (Failure C τ) := do
  let shallow := indentationFailure line .gt reference
  if Cursor.isEnd line then
    match ← item line with
    | .fail f => return f
    | .ok _ _ => return shallow
  else return shallow

/-- The items of a block whose head stands at `reference`. They are aligned at `aligned` or, if
that is not settled, where the first of them stands. The block ends at the end of the input and
before the first line that is not indented further than the head. -/
def blockItems (blanks : Parser m C τ γ) (item : Parser m C τ β) (reference : Level) :
    (atLeastOne : Bool) → (aligned : Option Level) → Nat → Parser m C τ (List β)
  | _, _, 0, _ => MonadRun.halt .boundSpent
  | atLeastOne, aligned, bound + 1, c => do
    match ← blanks c with
    | .fail f => return .fail f
    | .ok _ line =>
      let actual := Cursor.level line
      if Cursor.isEnd line || actual.column ≤ reference.column then
        if atLeastOne then return .fail (← missingItem item reference line)
        else return .ok [] c
      else
        let level := aligned.getD actual
        if actual = level then
          match ← item line with
          | .fail f => return .fail f
          | .ok v next =>
            return (← blockItems blanks item reference false (some level) bound next).map (v :: ·)
        else
          MonadRun.report (.misaligned (Cursor.position line).line level actual)
          return .fail (indentationFailure line .eq level)

def block (atLeastOne : Bool) (blanks : Parser m C τ γ) (head : Parser m C τ α)
    (item : Parser m C τ β) (bound : Nat) : Parser m C τ (α × List β) :=
  keepRight blanks (bind level fun reference =>
    both head (blockItems blanks item reference atLeastOne none bound))

end Descent.Parser
