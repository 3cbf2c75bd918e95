import Descent.Position

/-! Indentation levels and the relations asked between two of them. -/
namespace Descent

/-- The indentation of a line: the column of its first token. -/
structure Level where
  column : Nat
deriving DecidableEq, Repr

namespace Level

def first : Level := ⟨1⟩

def ofPosition (p : Position) : Level := ⟨p.column⟩

def describe (l : Level) : String := toString l.column

instance : Ord Level := ⟨fun a b => compare a.column b.column⟩

end Level

inductive Relation where
  | eq
  | ge
  | gt
  | any
deriving DecidableEq, Repr

namespace Relation

def satisfies : Relation → (reference actual : Level) → Bool
  | eq, reference, actual => actual.column == reference.column
  | ge, reference, actual => reference.column ≤ actual.column
  | gt, reference, actual => reference.column < actual.column
  | any, _, _ => true

def describe : Relation → String
  | eq => "equal to"
  | ge => "greater than or equal to"
  | gt => "greater than"
  | any => "anything"

end Relation

end Descent
