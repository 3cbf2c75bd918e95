import Descent.Parser.Choice
import Descent.Permutation.Orders

/-! Items that may come in any order. Each slot is filled once by its parser, or by its default;
however the input orders the items, their values are combined in the order of the slots. -/
namespace Descent

/-- A parser, the value where the item is left out if it may be, and how a value changes what the
slots before it have made. -/
structure Slot (m : Type → Type) (C τ α β : Type) where
  parser : Parser m C τ β
  default? : Option β
  combine : α → β → α

/-- Slots in their order, what they start from, and the orders in which they are tried. -/
structure Permutation (m : Type → Type) (C τ α β : Type) where
  seed : α
  slots : List (Slot m C τ α β)
  orders : Orders

abbrev Filled (β : Type) := List (Nat × β)

namespace Permutation

variable {m : Type → Type} {C τ α β : Type}

def empty (seed : α) : Permutation m C τ α β := ⟨seed, [], .none⟩

/-- One more slot, which comes last in the combination and is tried first. -/
def add (perm : Permutation m C τ α β) (s : Slot m C τ α β) : Permutation m C τ α β :=
  { perm with slots := perm.slots ++ [s], orders := perm.orders.insert perm.slots.length }

def ofSlots (seed : α) (slots : List (Slot m C τ α β)) : Permutation m C τ α β :=
  slots.foldl add (empty seed)

def built (perm : Permutation m C τ α β) : Event :=
  .permutationBuilt perm.slots.length perm.orders.size

/-- Gives each slot without a value its default, from slot number `i` on; none where a slot has
neither. -/
def fillDefaults (filled : Filled β) : Nat → List (Slot m C τ α β) → Option (Filled β)
  | _, [] => some filled
  | i, s :: more =>
    match filled.lookup i with
    | some _ => fillDefaults filled (i + 1) more
    | none => s.default?.bind fun v => fillDefaults ((i, v) :: filled) (i + 1) more

variable [MonadRun m]

/-- Combines the values of the slots from number `i` on with what those before have made. -/
def assemble (filled : Filled β) : Nat → List (Slot m C τ α β) → α → m α
  | _, [], acc => return acc
  | i, s :: more, acc =>
    match filled.lookup i with
    | none => MonadRun.halt (.slotUnfilled i)
    | some v => assemble filled (i + 1) more (s.combine acc v)

def finish (perm : Permutation m C τ α β) (filled : Filled β) (c : C) : m (Reply C τ α) :=
  return .ok (← assemble filled 0 perm.slots perm.seed) c

variable [Cursor C τ] [DecidableEq τ]

/-- Runs the slots that may come next, and after a success goes on behind it. Where all of them
fail without consuming, the slots that are left get their defaults, or the merged failure is
returned if one has none. -/
def walk (perm : Permutation m C τ α β) :
    Orders → Option (Failure C τ) → Filled β → Parser m C τ α
  | .none, none, filled, c => perm.finish filled c
  | .none, some f, filled, c =>
    match fillDefaults filled 0 perm.slots with
    | none => return .fail f
    | some filled => perm.finish filled c
  | .slot i rest others, failed, filled, c =>
    match perm.slots[i]? with
    | none => MonadRun.halt (.slotUnfilled i)
    | some s => do
      match ← s.parser c with
      | .ok v next => walk perm rest none ((i, v) :: filled) next
      | .fail f =>
        if f.consumedSince c then return .fail f
        else walk perm others (some (f.after failed)) filled c

def parser (perm : Permutation m C τ α β) : Parser m C τ α := walk perm perm.orders none []

end Permutation

end Descent
