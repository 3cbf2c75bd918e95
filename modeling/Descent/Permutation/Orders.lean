/-! Trees of orderings. Each path from the root to a leaf is an order in which slots can be
filled; the tree of `n` slots holds every order of them. -/
namespace Descent

/-- The ways to go on: a slot, the ways to go on after it, and the other slots that could come
instead. -/
inductive Orders where
  | none
  | slot (index : Nat) (rest others : Orders)
deriving DecidableEq, Repr

namespace Orders

/-- Puts slot `i` behind the first slot of each path, wherever it fits there. -/
def insertBelow (i : Nat) : Orders → Orders
  | none => none
  | slot j rest others =>
    slot j (slot i rest (insertBelow i rest)) (insertBelow i others)

def insert (i : Nat) (t : Orders) : Orders := slot i t (insertBelow i t)

def all : Nat → Orders
  | 0 => none
  | n + 1 => insert n (all n)

def size : Orders → Nat
  | none => 0
  | slot _ rest others => 1 + size rest + size others

end Orders

end Descent
