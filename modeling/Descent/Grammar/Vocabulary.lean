import Descent.Cursor.Memory
import Descent.Grammar.Value

/-! The functions that a grammar read at run time can name: tests on tokens and values, ways to
combine values, and position rules. -/
namespace Descent.Vocabulary

def isVowel (c : Char) : Bool := ['a', 'e', 'i', 'o', 'u'].contains c

def isUpper (c : Char) : Bool := 'A' ≤ c && c ≤ 'Z'

def isBeyondAscii (c : Char) : Bool := 128 ≤ c.toNat

def isEven (i : Int) : Bool := i % 2 == 0

def isNegative (i : Int) : Bool := i < 0

def isNewline (s : String) : Bool := s == "\n"

def isWord (s : String) : Bool := !s.isEmpty && s.toList.all fun c => 'a' ≤ c && c ≤ 'z'

def sizeBelow (n : Nat) (v : Value) : Bool := v.size < n

def sizeAtLeast (n : Nat) (v : Value) : Bool := n ≤ v.size

def readsAs (s : String) (v : Value) : Bool := v.asText == s

def joinText (v w : Value) : Value := .text (v.asText ++ w.asText)

def linePerToken {τ : Type} (p : Position) (_ : τ) : Position := ⟨p.line + 1, 1, p.offset⟩

def tab8 : Position → Char → Position := Position.nextChar 8

def bar (p : Position) (c : Char) : Position :=
  if c = '|' then ⟨p.line + 1, 1, p.offset⟩ else ⟨p.line, p.column + c.utf8Size, p.offset⟩

def signed (p : Position) (i : Int) : Position :=
  if i < 0 then ⟨p.line + 1, i.natAbs, p.offset⟩ else ⟨p.line, p.column + i.toNat, p.offset⟩

def lexer (p : Position) (s : String) : Position :=
  if isNewline s then ⟨p.line + 1, 1, p.offset⟩
  else ⟨p.line, p.column + s.utf8ByteSize + 1, p.offset⟩

end Descent.Vocabulary
