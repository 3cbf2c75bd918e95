import Descent.Cursor.Basic
import Descent.Error.Basic

/-! The outcome of a parser: a value and the cursor after it, or an error and the cursor where
reading stopped. Alternatives and repetitions commit to a parser that failed after it consumed
input, and pass over one that did not. -/
namespace Descent

structure Failure (C τ : Type) where
  error : ParseError τ
  cursor : C

inductive Reply (C τ α : Type) where
  | ok (value : α) (cursor : C)
  | fail (failure : Failure C τ)

namespace Failure

variable {C τ : Type}

def consumedSince [Cursor C τ] (f : Failure C τ) (start : C) : Bool :=
  !Cursor.same f.cursor start

def rewind (f : Failure C τ) (c : C) : Failure C τ := { f with cursor := c }

/-- The failures of two alternatives as one: the errors are merged, and the cursor further into
the input is kept. -/
def merge [Cursor C τ] [DecidableEq τ] (f g : Failure C τ) : Failure C τ :=
  ⟨f.error.merge g.error,
    if Cursor.offset f.cursor < Cursor.offset g.cursor then g.cursor else f.cursor⟩

end Failure

namespace Reply

variable {C τ α β : Type}

def cursor : Reply C τ α → C
  | ok _ c => c
  | fail f => f.cursor

def map (f : α → β) : Reply C τ α → Reply C τ β
  | ok v c => ok (f v) c
  | fail g => fail g

/-- After a success, what `k` makes of the value and the cursor; a failure is passed on. -/
def andThen {m : Type → Type} [Monad m] (r : Reply C τ α) (k : α → C → m (Reply C τ β)) :
    m (Reply C τ β) :=
  match r with
  | ok v c => k v c
  | fail f => pure (fail f)

def mapFailure (f : Failure C τ → Failure C τ) : Reply C τ α → Reply C τ α
  | ok v c => ok v c
  | fail g => fail (f g)

end Reply

end Descent
