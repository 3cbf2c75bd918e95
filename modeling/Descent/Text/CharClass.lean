import Descent.Text.Alphabetic
import Descent.Text.Blank
import Descent.Text.Numeric
import Descent.Text.Quoted

/-! The classes of characters that parsers of text tell apart. -/
namespace Descent

structure CharClass where
  test : Char → Bool
  label : String

namespace CharClass

def letter : CharClass := ⟨fun c => Text.alphabetic.holds c, "letter"⟩

def digit : CharClass := ⟨Char.isDigit, "digit"⟩

def alphanumeric : CharClass :=
  ⟨fun c => letter.test c || Text.numeric.holds c, "letter or digit"⟩

def blank : CharClass := ⟨fun c => Text.blank.holds c, "whitespace"⟩

def inlineBlank : CharClass := ⟨fun c => c == ' ' || c == '\t', "space"⟩

def newline : CharClass := ⟨(· == '\n'), "newline"⟩

def sign : CharClass := ⟨fun c => c == '-' || c == '+', "sign"⟩

def identifierPart : CharClass := ⟨fun c => alphanumeric.test c || c == '_', "identifier"⟩

def only (c : Char) : CharClass := ⟨(· == c), Text.quoteChar c⟩

def oneOf (chars : String) : CharClass :=
  ⟨(chars.toList.contains ·), "one of " ++ Text.quoteString chars⟩

def noneOf (chars : String) : CharClass :=
  ⟨(!chars.toList.contains ·), "none of " ++ Text.quoteString chars⟩

end CharClass

end Descent
