import Descent.Position
import Descent.Layout.Level

/-! The values of grammars. Grammars that are read at run time have no types of their own, so all
their parsers give values of this one type. -/
namespace Descent

inductive Value where
  | unit
  | char (c : Char)
  | text (s : String)
  | natural (n : Nat)
  | integer (i : Int)
  | level (l : Level)
  | position (p : Position)
  | spanned (v : Value) (span : Span)
  | absent
  | present (v : Value)
  | pair (v w : Value)
  | list (vs : List Value)
deriving Repr

namespace Value

mutual

def same : Value → Value → Bool
  | unit, unit => true
  | char a, char b => a == b
  | text s, text t => s == t
  | natural a, natural b => a == b
  | integer a, integer b => a == b
  | level a, level b => a == b
  | position p, position q => p == q
  | spanned v s, spanned w t => v.same w && s == t
  | absent, absent => true
  | present v, present w => v.same w
  | pair v w, pair v' w' => v.same v' && w.same w'
  | list vs, list ws => sameList vs ws
  | _, _ => false

def sameList : List Value → List Value → Bool
  | [], [] => true
  | v :: vs, w :: ws => v.same w && sameList vs ws
  | _, _ => false

end

mutual

theorem same_iff : (v w : Value) → (v.same w = true ↔ v = w)
  | unit, w | absent, w | char _, w | text _, w | natural _, w | integer _, w | level _, w
  | position _, w => by cases w <;> simp [same]
  | spanned v _, w | present v, w => by cases w <;> simp [same, same_iff v]
  | pair v v', w => by cases w <;> simp [same, same_iff v, same_iff v']
  | list vs, w => by cases w <;> simp [same, sameList_iff vs]

theorem sameList_iff : (vs ws : List Value) → (sameList vs ws = true ↔ vs = ws)
  | [], ws => by cases ws <;> simp [sameList]
  | v :: vs, ws => by cases ws <;> simp [sameList, same_iff v, sameList_iff vs]

end

instance : DecidableEq Value := fun v w => decidable_of_iff _ (same_iff v w)

mutual

/-- The characters of a value, in order; numbers are written in decimal. -/
def asText : Value → String
  | char c => String.singleton c
  | text s => s
  | natural n => toString n
  | integer i => toString i
  | spanned v _ => v.asText
  | present v => v.asText
  | pair v w => v.asText ++ w.asText
  | list vs => textOfList vs
  | _ => ""

def textOfList : List Value → String
  | [] => ""
  | v :: vs => v.asText ++ textOfList vs

end

/-- A number for a value: numbers stand for themselves if they are not negative, texts and lists
for their lengths, and levels for their columns. -/
def size : Value → Nat
  | unit => 0
  | char _ => 1
  | text s => s.length
  | natural n => n
  | integer i => i.toNat
  | level l => l.column
  | position _ => 0
  | spanned v _ => v.size
  | absent => 0
  | present _ => 1
  | pair _ _ => 2
  | list vs => vs.length

def swap : Value → Value
  | pair v w => pair w v
  | list vs => list vs.reverse
  | v => v

def push : Value → Value → Value
  | list vs, v => list (vs ++ [v])
  | w, _ => w

def cons (v : Value) : Value → Value
  | list vs => list (v :: vs)
  | w => w

def ofOption : Option Value → Value
  | none => absent
  | some v => present v

end Value

end Descent
