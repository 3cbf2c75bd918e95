import Descent.Cursor.Basic
import Descent.Stream.Window

/-! Cursors over the characters of a stream. All cursors of one stream share its window. -/
namespace Descent

/-- A cursor that has read the character in front of it. Its rule gives line and column after each
character; offsets count bytes whatever the rule says. -/
structure WindowCursor where
  ahead : Option (Char × Nat)
  position : Position
  encoding : Encoding
  rule : Position → Char → Position

inductive OpenError where
  | unreadable (message : String)
  | windowTooSmall (got : Nat)
deriving DecidableEq, Repr

namespace WindowCursor

def leastWindow : Nat := 4

def defaultWindow : Nat := 4096

instance : Cursor WindowCursor Char where
  current c := c.ahead.map (·.1)
  position c := c.position

/-- Opens a stream: the cursor at its start, and its window after the first bytes were read. -/
def ofReader (reader : Reader) (capacity : Nat) (encoding : Encoding)
    (rule : Position → Char → Position) : Except OpenError (WindowCursor × Journal Window) :=
  if capacity < leastWindow then .error (.windowTooSmall capacity)
  else
    let served := (Window.ofReader reader capacity).charAt encoding 0
    match served.result with
    | .error message => .error (.unreadable message)
    | .ok ahead => .ok (⟨ahead, .start, encoding, rule⟩, ⟨served.window, served.events, []⟩)

/-- The character at `offset`. After a failure there is none, and the window keeps the reason. -/
def fetch (encoding : Encoding) (offset : Nat) : Run Window (Option (Char × Nat)) := do
  let journal ← get
  let served := journal.source.charAt encoding offset
  match served.result with
  | .ok ahead =>
    set { journal with source := served.window, events := journal.events ++ served.events }
    return ahead
  | .error message =>
    set { journal with
      source := { served.window with error := some message },
      events := journal.events ++ served.events ++ [Event.readFailed offset none message] }
    return none

instance : Advance (Run Window) WindowCursor where
  advance c := match c.ahead with
    | none => MonadRun.halt (.pastEnd c.position)
    | some (ch, size) => do
      let offset := c.position.offset + size
      let ahead ← fetch c.encoding offset
      return { c with ahead, position := { c.rule c.position ch with offset } }

def takeError : Run Window (Option String) :=
  modifyGet fun journal =>
    (journal.source.error, { journal with source := { journal.source with error := none } })

end WindowCursor

namespace OpenError

def message : OpenError → String
  | unreadable message => "failed to read input stream: " ++ message
  | windowTooSmall got =>
    "stream window must hold at least " ++ toString WindowCursor.leastWindow ++ " bytes, got " ++
      toString got

end OpenError

end Descent
