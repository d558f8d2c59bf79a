/-
Channels between two tasks: items in the order in which they were sent, at most so many at a time.
Either end can be given up; what was sent before the sender was given up can still be received.
-/
import Telemetry.Clock

namespace Telemetry

/-- A channel. `closed` says that no sender is left, `dropped` that the receiver is gone. -/
structure Channel (α : Type) where
  items : List α := []
  closed : Bool := false
  dropped : Bool := false
deriving DecidableEq, Repr

/-- What a receiver gets. -/
inductive Received (α : Type) where
  | item (a : α)
  | nothing
  | finished
deriving DecidableEq, Repr

/-- What a receiver gets, with its item changed. -/
def Received.map {α β : Type} (f : α → β) : Received α → Received β
  | item a => .item (f a)
  | nothing => .nothing
  | finished => .finished

namespace Channel

variable {α : Type}

/-- The items that a channel between two stages holds. -/
def capacity : Nat := 16

/-- Whether there is a free place. -/
def hasRoom (c : Channel α) : Bool := c.items.length < capacity

/-- Appends an item. -/
def push (c : Channel α) (a : α) : Channel α := { c with items := c.items ++ [a] }

/-- The next item, if there is one, and else whether there will be any. -/
def receive (c : Channel α) : Received α × Channel α :=
  match c.items with
  | a :: rest => (.item a, { c with items := rest })
  | [] => (if c.closed then .finished else .nothing, c)

/-- Gives up the sender. -/
def close (c : Channel α) : Channel α := { c with closed := true }

/-- Gives up the receiver, and with it what has not been received. -/
def drop (c : Channel α) : Channel α := { c with items := [], dropped := true }

end Channel

end Telemetry
