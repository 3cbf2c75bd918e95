import Descent.Parser.Basic
import Descent.Parser.Lookahead

/-! Parsers that ask for an indentation. The indentation of a line is the column of its first
token, which stands behind the blanks that a parser of blanks skips; that parser has to skip
newlines too. -/
namespace Descent.Parser

variable {m : Type → Type} {C τ α β : Type} [MonadRun m] [Cursor C τ]

def indentationFailure (c : C) (relation : Relation) (reference : Level) : Failure C τ :=
  ⟨.indentation (Cursor.position c) relation reference (Cursor.level c), c⟩

def checkLevel (relation : Relation) (reference : Level) : Parser m C τ Level := fun c => do
  if relation.satisfies reference (Cursor.level c) then return .ok (Cursor.level c) c
  else
    MonadRun.report
      (.misindented (Cursor.position c).line relation reference (Cursor.level c))
    return .fail (indentationFailure c relation reference)

def guardLevel (blanks : Parser m C τ β) (relation : Relation) (reference : Level) :
    Parser m C τ Level :=
  keepRight blanks (checkLevel relation reference)

def unindented (blanks : Parser m C τ β) (p : Parser m C τ α) : Parser m C τ α :=
  keepRight (guardLevel blanks .eq .first) p

/-- Skips blanks and runs the body. The body is given a parser that leads to the next token of the
fold: one that stands further right than the first, on whatever line. Where there is none, that
parser consumes nothing. -/
def lineFold (blanks : Parser m C τ β) (body : Parser m C τ Level → Parser m C τ α) :
    Parser m C τ α :=
  keepRight blanks (bind level fun reference => body (attempt (guardLevel blanks .gt reference)))

/-- The value of `p` if it succeeds and starts at the level asked for, and none where it fails
without consuming. A success at another level is a failure where it started. -/
def optionalAt (reference : Level) (relation : Relation) (p : Parser m C τ α) :
    Parser m C τ (Option α) := fun c => do
  match ← p c with
  | .ok v next =>
    let checked : Reply C τ Level ← checkLevel relation reference c
    match checked with
    | .ok _ _ => return .ok (some v) next
    | .fail f => return .fail f
  | .fail f => if f.consumedSince c then return .fail f else return .ok none c

end Descent.Parser
