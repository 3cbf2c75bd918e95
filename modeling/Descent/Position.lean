/-! Places in the input, and how reading a character moves them. -/
namespace Descent

/-- Lines and columns count from one. The offset counts tokens, or the bytes of a stream, from
zero. -/
structure Position where
  line : Nat
  column : Nat
  offset : Nat
deriving DecidableEq, Repr

namespace Position

def start : Position := ⟨1, 1, 0⟩

def defaultTab : Nat := 4

/-- The column a tab leads to: one past the next multiple of the tab width, and the next column
where tabs have no width. Columns have no limit here. Those of 64 bits would overflow where the
width is close to theirs, at `2 ^ 64 - 1` with the first tab. -/
def tabStop (tab column : Nat) : Nat :=
  if tab = 0 then column + 1 else ((column - 1) / tab + 1) * tab + 1

def nextColumn (p : Position) : Position :=
  { p with column := p.column + 1, offset := p.offset + 1 }

/-- The place after `c`: a newline starts the next line, a tab leads to its stop, and every other
character is one column wide. -/
def nextChar (tab : Nat) (p : Position) (c : Char) : Position :=
  if c = '\n' then ⟨p.line + 1, 1, p.offset + 1⟩
  else if c = '\t' then { p with column := tabStop tab p.column, offset := p.offset + 1 }
  else p.nextColumn

def describe (p : Position) : String :=
  "line " ++ toString p.line ++ ", column " ++ toString p.column

def inspect (p : Position) : String :=
  "Position \x7b line: " ++ toString p.line ++ ", column: " ++ toString p.column ++
    ", offset: " ++ toString p.offset ++ " \x7d"

theorem offset_nextChar (tab : Nat) (p : Position) (c : Char) :
    (nextChar tab p c).offset = p.offset + 1 := by
  rw [nextChar]
  split
  · rfl
  · split <;> rfl

def mapOffset (f : Nat → Nat) (p : Position) : Position := { p with offset := f p.offset }

/-- Line and column after a character have nothing to do with offsets. -/
theorem nextChar_mapOffset (tab : Nat) (f : Nat → Nat) (p : Position) (c : Char) (offset : Nat) :
    { nextChar tab (p.mapOffset f) c with offset } = { nextChar tab p c with offset } := by
  unfold nextChar
  split
  · rfl
  · split <;> rfl

end Position

/-- Where a value was read: the places of its first token and of the token after its last. -/
structure Span where
  start : Position
  stop : Position
deriving DecidableEq, Repr

namespace Span

def length (s : Span) : Nat := s.stop.offset - s.start.offset

def isEmpty (s : Span) : Bool := s.start.offset == s.stop.offset

end Span

end Descent
