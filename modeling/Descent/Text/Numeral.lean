/-! Numbers in decimal, and the limits of those that parsers read. -/
namespace Descent.Text

def decimalValue (digits : List Char) : Nat :=
  digits.foldl (fun n d => 10 * n + (d.toNat - '0'.toNat)) 0

def signedValue (sign : Option Char) (digits : List Char) : Int :=
  if sign = some '-' then -(decimalValue digits : Int) else decimalValue digits

/-- Naturals are below this, `2 ^ 64`. -/
def naturalLimit : Nat := 18446744073709551616

/-- Integers are below this, `2 ^ 63`, and not below its negative. -/
def integerLimit : Int := 9223372036854775808

end Descent.Text
