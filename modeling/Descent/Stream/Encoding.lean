/-! How the bytes of a stream stand for characters. -/
namespace Descent

/-- UTF-8, or ISO 8859-1 with one byte for each character. -/
inductive Encoding where
  | utf8
  | latin1
deriving DecidableEq, Repr

namespace Encoding

def replacement : Char := '\uFFFD'

/-- What the first byte of a longer UTF-8 sequence says: how many bytes continue it, the bits it
carries, and the least code point that needs a sequence of this length. -/
def lead (b : Nat) : Option (Nat × Nat × Nat) :=
  if b < 0xC0 then none
  else if b < 0xE0 then some (1, b - 0xC0, 0x80)
  else if b < 0xF0 then some (2, b - 0xE0, 0x800)
  else if b < 0xF8 then some (3, b - 0xF0, 0x10000)
  else none

/-- The code point that `n` continuation bytes complete, six bits each. -/
def continued : (n code : Nat) → List UInt8 → Option Nat
  | 0, code, _ => some code
  | _ + 1, _, [] => none
  | n + 1, code, b :: more =>
    if b.toNat / 64 = 2 then continued n (code * 64 + b.toNat % 64) more else none

/-- The character of a UTF-8 sequence of two bytes or more, and its length. Sequences that are cut
short or longer than needed, surrogates and code points past the last one have none. -/
def sequence (b : UInt8) (more : List UInt8) : Option (Char × Nat) := do
  let (n, bits, least) ← lead b.toNat
  let code ← continued n bits more
  if h : least ≤ code ∧ code.isValidChar then some (Char.ofNatAux code h.2, n + 1) else none

/-- The first character of UTF-8 bytes and its length. A byte that begins none is a character of
its own. -/
def decodeUtf8 : List UInt8 → Option (Char × Nat)
  | [] => none
  | b :: more =>
    if b.toNat < 0x80 then some (Char.ofNat b.toNat, 1)
    else some ((sequence b more).getD (replacement, 1))

def decode : Encoding → List UInt8 → Option (Char × Nat)
  | utf8, bytes => decodeUtf8 bytes
  | latin1, bytes => bytes.head?.map fun b => (Char.ofNat b.toNat, 1)

def longest : Encoding → Nat
  | utf8 => 4
  | latin1 => 1

end Encoding

end Descent
