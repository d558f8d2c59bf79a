/-
Collectors whose answers are known beforehand, and a look at the answers of those of a host.
-/
import Telemetry.Rehearsal.Script
import Telemetry.Sampling.Host

namespace Telemetry.Rehearsal

open Number (Binary64)
open Sampling

/-- Goes by a script: call `n` gives item `n`, and the last one is repeated. -/
def scripted (steps : List (Option (List Record))) : Collector where
  answer n := (repeatingLast? steps (n - 1)).getD (some [])

/-- Counters that grow by a fixed amount with each call. -/
def ticking (rates : List (String × Int64)) : Collector where
  answer n := some (rates.map fun (name, k) => .counter name (Int64.ofNat n * k))

/-- Gauges that stand at the number of the call over a fixed number. -/
def tickingGauges (scales : List (String × Binary64)) : Collector where
  answer n := some (scales.map fun (name, d) => .gauge name (.div (.ofNat n) d))

/-- A host at rest. -/
def quietHost : HostReading where
  process := some ⟨1, 1, .zero⟩
  random := .zero
  totalMemory := 1
  freeMemory := 1
  processorUsages := [.zero]

/-- The records whose names are those of processors, numbered from `i`. -/
def isProcessor (i : Nat) (r : Record) : Bool :=
  match r.value with
  | .gauge _ => r.name == "CPUutilization" ++ Number.natText (i + 1)
  | .counter _ => false

/-- Takes the gauges of the processors together to one name, when they are numbered from 1 on. -/
def foldProcessors : Nat → List String → List Record → List String
  | 0, names, [] => names.reverse
  | _, names, [] => ("CPUutilization1..N" :: names).reverse
  | i, names, r :: rest =>
    if isProcessor i r then foldProcessors (i + 1) names rest
    else foldProcessors i (r.name :: names) rest

/-- A gauge's value by its name. -/
def gauge? (name : String) (rs : List Record) : Option Binary64 :=
  rs.findSome? fun r => match r.value with
    | .gauge x => if r.name == name then some x else none
    | .counter _ => none

/-- Order of finite numbers that are not negative. -/
def notAbove (x y : Binary64) : Bool := x.magnitude ≤ y.magnitude

/-- Whether the gauges of a host can be right: finite and not negative, the random one below 1, and no
more memory free than there is. -/
def isSane (rs : List Record) : Bool :=
  rs.all (fun r => match r.value with
    | .gauge x => x.isFinite && (!x.isNegative || x.isZero)
    | .counter _ => true) &&
  ((gauge? "RandomValue" rs).all fun x => notAbove x (.ofNat 1) && !x.ieeeEq (.ofNat 1)) &&
  (match gauge? "FreeMemory" rs, gauge? "TotalMemory" rs with
    | some f, some t => notAbove f t
    | _, _ => true)

end Telemetry.Rehearsal
