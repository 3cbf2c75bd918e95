import Descent.Parser.Choice
import Descent.Parser.Diagnosis
import Descent.Parser.Repeat
import Descent.Text.CharClass
import Descent.Text.Numeral

/-! Parsers of text, for tokens that are characters. -/
namespace Descent.Parser

variable {m : Type → Type} {C τ : Type} [MonadRun m] [Cursor C τ] [Advance m C] [Token τ]

def charOf (k : CharClass) : Parser m C τ Char :=
  accept (fun t => (Token.char? t).filter k.test) k.label

def char (c : Char) : Parser m C τ Char := charOf (.only c)

def letter : Parser m C τ Char := charOf .letter

def digit : Parser m C τ Char := charOf .digit

def blanks (bound : Nat) : Parser m C τ Unit := skipMany bound (charOf .blank)

def inlineBlanks (bound : Nat) : Parser m C τ Unit := skipMany bound (charOf .inlineBlank)

/-- Why a literal ended early: the input did, or it went on with another token. -/
def literalMismatch (start : C) (expected : String) (seen : List Char) (found : Option τ) :
    Failure C τ :=
  let unexpected := match found with
    | none => .endOfInput
    | some t => match Token.char? t with
      | none => .label (Token.quoted t)
      | some c => .label (Text.quoteChars (seen ++ [c]))
  ⟨.found (Cursor.position start) unexpected (.label (Text.quoteString expected)), start⟩

def literalRest (start : C) (expected : String) : (seen rest : List Char) → Parser m C τ String
  | _, [], c => return .ok expected c
  | seen, e :: rest, c => do
    match Cursor.current c with
    | some t =>
      if Token.char? t = some e then literalRest start expected (seen ++ [e]) rest (← advance c)
      else return .fail (literalMismatch start expected seen (some t))
    | none => return .fail (literalMismatch start expected seen none)

/-- Reads a string as a whole: where the input differs, nothing is consumed, and the error shows
what was read up to the difference. -/
def literal (expected : String) : Parser m C τ String := fun c =>
  literalRest c expected [] expected.toList c

/-- A decimal number below `2 ^ 64`. -/
def natural (bound : Nat) : Parser m C τ Nat := fun c => do
  match ← many1 bound digit c with
  | .fail f => return .fail f
  | .ok digits next =>
    let n := Text.decimalValue digits
    if n < Text.naturalLimit then return .ok n next
    else
      let text := String.ofList digits
      return .fail ⟨.message (Cursor.position c) ("number too large: " ++ text), next⟩

/-- A decimal number, with or without a sign, from `-2 ^ 63` to `2 ^ 63 - 1`. -/
def integer (bound : Nat) : Parser m C τ Int := fun c => do
  match ← both (optional (charOf .sign)) (many1 bound digit) c with
  | .fail f => return .fail f
  | .ok (sign, digits) next =>
    let i := Text.signedValue sign digits
    if -Text.integerLimit ≤ i ∧ i < Text.integerLimit then return .ok i next
    else
      let text := String.ofList (sign.toList ++ digits)
      return .fail ⟨.message (Cursor.position c) ("number out of range: " ++ text), next⟩

def identifier (bound : Nat) : Parser m C τ String :=
  bind (expecting letter "identifier") fun first =>
    map (many bound (charOf .identifierPart)) fun more => String.ofList (first :: more)

end Descent.Parser
