/-! # Batches

A `Batch` collects items in arrival order until it holds `limit` of them. It is *ready* at
`limit` items or more (so a limit of 0 is always ready) and *due* when ready, or when a flush is
forced and it is not empty. The newest item with a property is the last one in the list.
-/
namespace ChangeLedger

/-- Items in arrival order, with the size at which the batch is ready. -/
structure Batch (α : Type) where
  limit : Nat
  items : List α := []
  deriving Repr

namespace Batch

variable {α : Type}

def empty (limit : Nat) : Batch α := { limit := limit }

def size (b : Batch α) : Nat := b.items.length

def isReady (b : Batch α) : Bool := b.limit ≤ b.size

/-- Due for a flush: ready, or forced and not empty. -/
def isDue (b : Batch α) (force : Bool) : Bool := b.isReady || (force && !b.items.isEmpty)

def push (b : Batch α) (a : α) : Batch α := { b with items := b.items ++ [a] }

def drain (b : Batch α) : List α × Batch α := (b.items, { b with items := [] })

def findLast? (b : Batch α) (p : α → Bool) : Option α := b.items.reverse.find? p

def replaceLast (p : α → Bool) (f : α → α) : List α → Option (List α)
  | [] => none
  | a :: rest =>
    match replaceLast p f rest with
    | some rest' => some (a :: rest')
    | none => if p a then some (f a :: rest) else none

/-- Replace the newest item satisfying `p` by `f` of it; `none` when no item does. -/
def modifyLast? (b : Batch α) (p : α → Bool) (f : α → α) : Option (Batch α) :=
  (replaceLast p f b.items).map fun items => { b with items := items }

@[simp] theorem size_push (b : Batch α) (a : α) : (b.push a).size = b.size + 1 := by
  simp [push, size]

@[simp] theorem items_push (b : Batch α) (a : α) : (b.push a).items = b.items ++ [a] := rfl

@[simp] theorem limit_push (b : Batch α) (a : α) : (b.push a).limit = b.limit := rfl

end Batch

end ChangeLedger
