import Descent.Text.DefaultIgnorable
import Descent.Text.GraphemeExtend
import Descent.Text.Printable

/-! Quoted characters and strings, as error messages show them: what would not be seen on the page
is written as an escape. -/
namespace Descent.Text

/-- Whether a character is drawn onto the one before it. The halfwidth sound marks of Katakana
extend what they follow, but stand in a place of their own. -/
def joinsPrevious (c : Char) : Bool := graphemeExtend.holds c && c != '\uFF9E' && c != '\uFF9F'

def isVisible (c : Char) : Bool :=
  printable.holds c && !defaultIgnorable.holds c && !joinsPrevious c

def hexEscape (n : Nat) : List Char :=
  ['\\', 'u', '\x7b'] ++ Nat.toDigits 16 n ++ ['\x7d']

/-- How `c` is written between two marks `mark`: short escapes for NUL, tab, the two line breaks,
the backslash and the mark, and a hexadecimal escape for what is not visible. -/
def escape (mark c : Char) : List Char :=
  if c = '\x00' then ['\\', '0']
  else if c = '\t' then ['\\', 't']
  else if c = '\r' then ['\\', 'r']
  else if c = '\n' then ['\\', 'n']
  else if c = '\\' ∨ c = mark then ['\\', c]
  else if isVisible c then [c]
  else hexEscape c.toNat

def quoteChar (c : Char) : String :=
  String.ofList (['\x27'] ++ escape '\x27' c ++ ['\x27'])

def quoteChars (cs : List Char) : String :=
  String.ofList (['\x22'] ++ cs.flatMap (escape '\x22') ++ ['\x22'])

def quoteString (s : String) : String := quoteChars s.toList

end Descent.Text
