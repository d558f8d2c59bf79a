/-
Numbers of a settings document. Integers have 64 bits and may be written to four bases; the others are
rounded to the nearest number there is. Between two digits there may be a line.
-/
import Telemetry.Toml.Moment
import Telemetry.Toml.Value

namespace Telemetry.Toml

open Number (Binary64)

/-- The digits behind those read so far in reverse. A line stands between two digits only. -/
def moreDigits (base : Nat) (acc : List Nat) : List Char → Option (List Nat × List Char)
  | [] => some (acc.reverse, [])
  | ['_'] => none
  | '_' :: c :: rest =>
    match digitValue? base c with
    | some d => moreDigits base (d :: acc) rest
    | none => none
  | c :: rest =>
    match digitValue? base c with
    | some d => moreDigits base (d :: acc) rest
    | none => some (acc.reverse, c :: rest)

/-- One digit at least. -/
def digitRun? (base : Nat) : Reader (List Nat) := fun cs =>
  match cs with
  | [] => none
  | c :: rest =>
    match digitValue? base c with
    | some d => moreDigits base [d] rest
    | none => none

/-- The digits of a whole number to base ten; only the number zero begins with a zero. -/
def wholeDigits? : Reader (List Nat) := fun cs =>
  match cs with
  | '0' :: rest => some ([0], rest)
  | cs => digitRun? 10 cs

/-- A number of 64 bits with a sign, if it fits. -/
def integer? (n : Int) : Option Value :=
  if -(0x8000000000000000) ≤ n ∧ n < 0x8000000000000000 then some (.integer (Int64.ofInt n)) else none

/-- A sign in front of a number; says whether it is a minus. -/
def readSign : List Char → Option Bool × List Char
  | '+' :: rest => (some false, rest)
  | '-' :: rest => (some true, rest)
  | cs => (none, cs)

/-- The digits behind a point. -/
def readPlaces : List Char → Option (List Nat × List Char)
  | '.' :: rest => digitRun? 10 rest
  | cs => some ([], cs)

/-- The power of ten. -/
def readPower (cs : List Char) : Option (Int × List Char) :=
  match cs with
  | c :: rest =>
    if c = 'e' ∨ c = 'E' then
      let (sign, rest) := readSign rest
      (digitRun? 10 rest).map fun (ds, rest) =>
        (if sign = some true then -(numberOf 10 ds : Int) else numberOf 10 ds, rest)
    else some (0, c :: rest)
  | [] => some (0, [])

/-- The number nearest to some digits times a power of ten. Beyond the bounds of all numbers the power
is not worked out. -/
def nearestDecimal (negative : Bool) (digits : Nat) (power : Int) : Binary64 :=
  let leading := power + Number.log10 digits
  if digits = 0 ∨ leading < -400 then .ofMagnitude negative 0
  else if 400 < leading then .infinity negative
  else .ofQuotient negative (digits * Nat.pow 10 power.toNat) (Nat.pow 10 (-power).toNat)

/-- A number with a point or a power. It may not be too large, unless it is negative. -/
def double? (negative : Bool) (digits : Nat) (power : Int) : Option Value :=
  let x := nearestDecimal negative digits power
  if x = .infinity false then none else some (.double x)

/-- A number to base ten behind its sign. -/
def readDecimal (negative : Bool) : Reader Value := fun cs => do
  let (whole, behind) ← wholeDigits? cs
  let (places, rest) ← readPlaces behind
  let (power, rest) ← readPower rest
  if rest.length = behind.length then
    let n : Int := numberOf 10 whole
    let v ← integer? (if negative then -n else n)
    some (v, rest)
  else
    let v ← double? negative (numberOf 10 (whole ++ places)) (power - places.length)
    some (v, rest)

/-- A number to another base. -/
def readBased (base : Nat) : Reader Value := fun cs => do
  let (digits, rest) ← digitRun? base cs
  let v ← integer? (numberOf base digits)
  some (v, rest)

/-- A number or a moment. -/
def readNumber : Reader Value := fun cs =>
  if Moment.isDate cs || Moment.isTime cs then (Moment.read? cs).map fun rest => (.moment, rest)
  else
    match readSign cs with
    | (some negative, 'i' :: 'n' :: 'f' :: rest) => some (.double (.infinity negative), rest)
    | (some negative, 'n' :: 'a' :: 'n' :: rest) =>
      some (.double (if negative then Number.Binary64.nan.neg else .nan), rest)
    | (some negative, rest) => readDecimal negative rest
    | (none, '0' :: 'x' :: rest) => readBased 16 rest
    | (none, '0' :: 'o' :: rest) => readBased 8 rest
    | (none, '0' :: 'b' :: rest) => readBased 2 rest
    | (none, rest) => readDecimal false rest

end Telemetry.Toml
