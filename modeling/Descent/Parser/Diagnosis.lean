import Descent.Parser.Basic
import Descent.Text.Quoted

/-! Parsers with other errors, and parsers that report what they do. -/
namespace Descent.Parser

variable {m : Type → Type} {C τ α : Type} [MonadRun m]

def mapError (p : Parser m C τ α) (f : ParseError τ → ParseError τ) : Parser m C τ α := fun c => do
  match ← p c with
  | .ok v next => return .ok v next
  | .fail g => return .fail { g with error := f g.error }

def expecting (p : Parser m C τ α) (label : String) : Parser m C τ α :=
  mapError p (·.relabel label)

def inspectMapError (inner : String) : String :=
  "MapError \x7b parser: " ++ inner ++ ", mapper: " ++ Text.quoteString "<function>" ++ " \x7d"

def inspectExpecting (inner label : String) : String :=
  "FailWith \x7b parser: " ++ inner ++ ", label: " ++ Text.quoteString label ++ " \x7d"

/-- Runs `p`, which a function has just made: the deferred parsers in it are new, and the events in
`made` were reported meanwhile. -/
def making (p : Parser m C τ α) (renewed : Supplier → Bool) (made : List Event) : Parser m C τ α :=
  fun c => do
    MonadRun.renew renewed
    made.forM MonadRun.report
    p c

def deferred (p : Parser m C τ α) (supplier : Supplier) (made : List Event) : Parser m C τ α :=
  fun c => do
    MonadRun.build supplier made
    p c

def traced [Cursor C τ] (p : Parser m C τ α) (name : String) : Parser m C τ α := fun c => do
  let start := Cursor.position c
  MonadRun.report (.entered name start.line start.column)
  let reply ← p c
  match reply with
  | .ok _ next => MonadRun.report (.succeeded name (Cursor.offset next - start.offset))
  | .fail f =>
    MonadRun.report (.failed name f.error.position.line f.error.position.column
      (Cursor.offset f.cursor != start.offset))
  return reply

end Descent.Parser
