import Descent.Layout.Level

/-! What parsers and streams report of their work. -/
namespace Descent

inductive Severity where
  | trace
  | debug
  | warn
deriving DecidableEq, Repr

/-- What a parser is made by that is built where it is first run: its name, the type of the parser,
of which reports tell, and how many slots the permutations have that are built with it. Each parser
has a name of its own, and so have those that a recursive grammar makes at each of its levels. -/
structure Supplier where
  name : String
  type : String
  permutations : List Nat
deriving DecidableEq, Repr

/-- A report: a traced parser begins, succeeds or fails; a deferred parser or a permutation is
built; a token stands at the wrong indentation; a window is filled from its stream, or could not
be. -/
inductive Event where
  | entered (parser : String) (line column : Nat)
  | succeeded (parser : String) (consumed : Nat)
  | failed (parser : String) (line column : Nat) (consumed : Bool)
  | parserBuilt (supplier : Supplier)
  | permutationBuilt (slots branches : Nat)
  | misindented (line : Nat) (relation : Relation) (reference actual : Level)
  | misaligned (line : Nat) (level actual : Level)
  | refilled (offset bytes refills : Nat)
  | readFailed (offset : Nat) (bytes : Option Nat) (error : String)
deriving DecidableEq, Repr

namespace Event

def message : Event → String
  | entered .. => "enter"
  | succeeded .. => "success"
  | failed .. => "failure"
  | parserBuilt .. => "building indirect parser"
  | permutationBuilt .. => "built permutation parser"
  | misindented .. => "indentation violation"
  | misaligned .. => "block item at wrong indentation"
  | refilled .. => "refilled stream window"
  | readFailed .. => "stream read failed, ending input"

def severity : Event → Severity
  | permutationBuilt .. | refilled .. => .debug
  | readFailed .. => .warn
  | _ => .trace

end Event

def Severity.describe : Severity → String
  | .trace => "TRACE"
  | .debug => "DEBUG"
  | .warn => "WARN"

end Descent
