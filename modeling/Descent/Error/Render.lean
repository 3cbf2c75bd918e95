import Descent.Error.Basic
import Descent.Token

/-! The text of a parse error: its place on the first line, then what was found and what would have
fitted, or its explanations, each on a line. -/
namespace Descent

variable {τ : Type}

def Symbol.render [Token τ] : Symbol τ → String
  | .token t => Token.quoted t
  | .label text => text
  | .endOfInput => "end of input"

def Note.render : Note → String
  | .message text => text
  | .indentation relation reference actual =>
    "incorrect indentation (got " ++ actual.describe ++ ", should be " ++ relation.describe ++
      " " ++ reference.describe ++ ")"

namespace ParseError

def alternatives [Token τ] (lead : String) : List (Symbol τ) → String
  | [] => ""
  | symbols => lead ++ String.intercalate " or " (symbols.map Symbol.render) ++ "\n"

def render [Token τ] (e : ParseError τ) : String :=
  "(" ++ e.position.describe ++ "):\n" ++
    match e with
    | mismatch _ unexpected expected =>
      alternatives "unexpected " unexpected ++ alternatives "expected " expected
    | explained _ notes => String.join (notes.map fun note => note.render ++ "\n")

end ParseError

end Descent
