/-
What the agent measures: named counters and gauges, the snapshots and batches they travel in, and
the two ways in which records are compared.
-/
import Telemetry.Number.Binary64

namespace Telemetry

open Number (Binary64)

/-- A counter is summed by the collector, a gauge replaces its earlier value. -/
inductive Kind where
  | counter
  | gauge
deriving DecidableEq, Repr

/-- The reading of a metric: how much a counter grew, or where a gauge stands. -/
inductive Value where
  | counter (delta : Int64)
  | gauge (value : Binary64)
deriving DecidableEq, Repr

/-- One measurement. -/
structure Record where
  name : String
  value : Value
deriving DecidableEq, Repr

/-- The records of one poll, in the order in which they were read. -/
abbrev Snapshot := List Record

/-- The records of one delivery. -/
abbrev Batch := List Record

namespace Kind

/-- The word for a kind, in messages and on the wire. -/
def word : Kind → String
  | counter => "counter"
  | gauge => "gauge"

/-- A capital letter of the ASCII range becomes small; no other character has a small form among
the letters of the two words. -/
def fold (c : Char) : Char := if 'A' ≤ c ∧ c ≤ 'Z' then Char.ofNat (c.toNat + 32) else c

/-- The kind that a word names, in any mixture of capital and small letters. -/
def ofWord? (text : String) : Option Kind :=
  let folded := text.toList.map fold
  if folded = counter.word.toList then some counter
  else if folded = gauge.word.toList then some gauge
  else none

/-- The complaint about a word that names no kind. -/
def unknownMessage (text : String) : String := "unknown metric kind: " ++ text

end Kind

namespace Value

def kind : Value → Kind
  | counter _ => .counter
  | gauge _ => .gauge

/-- Gauges compare as numbers, so the two zeros are equal and a NaN differs from itself. -/
def same : Value → Value → Bool
  | counter a, counter b => a == b
  | gauge x, gauge y => x.ieeeEq y
  | _, _ => false

/-- Every counter, and every gauge that is neither infinite nor a NaN. -/
def isFinite : Value → Bool
  | counter _ => true
  | gauge x => x.isFinite

end Value

namespace Record

def counter (name : String) (delta : Int64) : Record := ⟨name, .counter delta⟩

def gauge (name : String) (value : Binary64) : Record := ⟨name, .gauge value⟩

def kind (r : Record) : Kind := r.value.kind

/-- What the collector files a record under. -/
def identity (r : Record) : String × Kind := (r.name, r.kind)

def same (r s : Record) : Bool := r.name == s.name && r.value.same s.value

def isFinite (r : Record) : Bool := r.value.isFinite

end Record

end Telemetry
