import Descent.Run
import Descent.Stream.Encoding
import Descent.Stream.Reader

/-! A window of bytes that slides over a stream. Within the window bytes are there at once; for
others the reader is sent to their offset and the window is filled anew. -/
namespace Descent

/-- At most `capacity` bytes of the stream from offset `base` on. When it is `exhausted`, the input
ends where the window does. The last failure is kept until it is taken. -/
structure Window where
  reader : Reader
  capacity : Nat
  base : Nat
  bytes : List UInt8
  exhausted : Bool
  refills : Nat
  error : Option String
deriving DecidableEq, Repr

structure Served (α : Type) where
  result : Except String α
  events : List Event
  window : Window

namespace Window

def ofReader (reader : Reader) (capacity : Nat) : Window :=
  ⟨reader, capacity, 0, [], false, 0, none⟩

def stop (w : Window) : Nat := w.base + w.bytes.length

/-- Fills the window from `offset` on. A failure before the first byte leaves the window where it
was; it has lost its bytes unless the failure was the seek. After a later failure the input ends
with the bytes that were read. -/
def fill (w : Window) (offset : Nat) : Served Unit :=
  match w.reader.seek offset with
  | (.error message, reader) => ⟨.error message, [], { w with reader }⟩
  | (.ok (), reader) =>
    match reader.readUpTo w.capacity with
    | ([], some message, reader) => ⟨.error message, [], { w with reader, bytes := [] }⟩
    | (bytes, failure, reader) =>
      let refills := w.refills + 1
      ⟨.ok (),
        failure.toList.map (.readFailed offset (some bytes.length)) ++
          [.refilled offset bytes.length refills],
        { w with
          reader, bytes, refills
          base := offset
          exhausted := bytes.length < w.capacity
          error := failure.or w.error }⟩

def covers (w : Window) (offset want : Nat) : Bool :=
  w.base ≤ offset && (offset + want ≤ w.stop || w.exhausted && offset ≤ w.stop)

def slice (w : Window) (offset want : Nat) : List UInt8 :=
  (w.bytes.drop (offset - w.base)).take want

/-- `want` bytes from `offset` on, and fewer only at the end of the input. -/
def bytesAt (w : Window) (offset want : Nat) : Served (List UInt8) :=
  if w.covers offset want then ⟨.ok (w.slice offset want), [], w⟩
  else
    let filled := w.fill offset
    ⟨filled.result.map fun _ => filled.window.slice offset want, filled.events, filled.window⟩

def charAt (w : Window) (encoding : Encoding) (offset : Nat) : Served (Option (Char × Nat)) :=
  let served := w.bytesAt offset encoding.longest
  ⟨served.result.map encoding.decode, served.events, served.window⟩

end Window

end Descent
