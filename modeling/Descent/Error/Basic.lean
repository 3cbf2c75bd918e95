import Descent.Layout.Level

/-! Parse errors, and how the errors of competing alternatives are joined: the one furthest into
the input wins, and equals are united. -/
namespace Descent

inductive Symbol (τ : Type) where
  | token (t : τ)
  | label (text : String)
  | endOfInput
deriving DecidableEq, Repr

/-- An explanation in words, or an indentation that does not stand to its reference as it
should. -/
inductive Note where
  | message (text : String)
  | indentation (relation : Relation) (reference actual : Level)
deriving DecidableEq, Repr

/-- Tokens that did not fit list what was found and what would have fitted. All other errors
explain themselves. -/
inductive ParseError (τ : Type) where
  | mismatch (position : Position) (unexpected expected : List (Symbol τ))
  | explained (position : Position) (notes : List Note)
deriving DecidableEq, Repr

namespace ParseError

variable {τ : Type}

def found (position : Position) (unexpected expected : Symbol τ) : ParseError τ :=
  mismatch position [unexpected] [expected]

def message (position : Position) (text : String) : ParseError τ :=
  explained position [.message text]

def indentation (position : Position) (relation : Relation) (reference actual : Level) :
    ParseError τ :=
  explained position [.indentation relation reference actual]

def position : ParseError τ → Position
  | mismatch p _ _ => p
  | explained p _ => p

def offset (e : ParseError τ) : Nat := e.position.offset

def moveTo (e : ParseError τ) (p : Position) : ParseError τ :=
  match e with
  | mismatch _ unexpected expected => mismatch p unexpected expected
  | explained _ notes => explained p notes

def mapPosition (f : Position → Position) (e : ParseError τ) : ParseError τ :=
  e.moveTo (f e.position)

/-- The first list, followed by what is new in the second. -/
def union {ι : Type} [DecidableEq ι] (into : List ι) : List ι → List ι
  | [] => into
  | i :: more => union (if i ∈ into then into else into ++ [i]) more

section Union

variable {ι : Type} [DecidableEq ι] {into more : List ι} {i : ι}

@[simp] theorem mem_union : i ∈ union into more ↔ i ∈ into ∨ i ∈ more := by
  induction more generalizing into with
  | nil => simp [union]
  | cons k more ih =>
    rw [union, ih]
    split <;> grind

theorem nodup_union (h : into.Nodup) : (union into more).Nodup := by
  induction more generalizing into with
  | nil => exact h
  | cons k more ih =>
    rw [union]
    apply ih
    split
    · exact h
    · rename_i hk
      exact List.nodup_append.2 ⟨h, by simp, by grind⟩

end Union

/-- The errors of two alternatives as one. The one further into the input wins. At one offset,
errors of a kind unite what they list, and an explained error wins over a mismatch. -/
def merge [DecidableEq τ] (a b : ParseError τ) : ParseError τ :=
  if b.offset < a.offset then a
  else if a.offset < b.offset then b
  else match a, b with
    | mismatch p unexpected expected, mismatch _ unexpected' expected' =>
      mismatch p (union unexpected unexpected') (union expected expected')
    | explained p notes, explained _ notes' => explained p (union notes notes')
    | explained p notes, mismatch _ _ _ => explained p notes
    | mismatch _ _ _, explained p notes => explained p notes

/-- Says that `label` was expected, and nothing else: a mismatch keeps what it found, and an
explained error gets `label` for its explanation. -/
def relabel (label : String) : ParseError τ → ParseError τ
  | mismatch p unexpected _ => mismatch p unexpected [.label label]
  | explained p _ => message p label

def isExplained : ParseError τ → Bool
  | mismatch _ _ _ => false
  | explained _ _ => true

def unexpected : ParseError τ → List (Symbol τ)
  | mismatch _ unexpected _ => unexpected
  | explained _ _ => []

def expected : ParseError τ → List (Symbol τ)
  | mismatch _ _ expected => expected
  | explained _ _ => []

def notes : ParseError τ → List Note
  | mismatch _ _ _ => []
  | explained _ notes => notes

/-- The first indentation that an error complains of. -/
def violation? : ParseError τ → Option (Relation × Level × Level)
  | mismatch _ _ _ => none
  | explained _ notes => notes.findSome? fun
    | .message _ => none
    | .indentation relation reference actual => some (relation, reference, actual)

end ParseError

end Descent
