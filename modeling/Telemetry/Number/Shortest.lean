/-
The shortest decimal of a finite double: of all decimals that round to the value the one with the
fewest digits, and the nearest of those. Which of two equally near ones is meant is for the format
to say. All comparisons are exact, in `Nat`.
-/
import Telemetry.Number.Binary64

namespace Telemetry.Number

/-- The decimal `digits * 10 ^ exponent`, without a sign. -/
structure Decimal where
  digits : Nat
  exponent : Int
deriving DecidableEq, Repr

/-- The number of decimal digits of `n`, less one; 0 for 0. -/
def log10 (n : Nat) : Nat :=
  if n < 10 then 0 else log10 (n / 10) + 1
termination_by n
decreasing_by omega

namespace Decimal

/-- Trailing zeros move into the exponent. -/
def trim (d : Decimal) : Decimal :=
  if d.digits ≠ 0 ∧ d.digits % 10 = 0 then trim ⟨d.digits / 10, d.exponent + 1⟩ else d
termination_by d.digits
decreasing_by omega

/-- The exponent of the first digit. -/
def leading (d : Decimal) : Int := d.exponent + log10 d.digits

end Decimal

/-- The exponent of the first decimal digit of `num / den`, for positive numbers. -/
def decimalExponent (num den : Nat) : Int :=
  if den ≤ num then (log10 (num / den) : Int)
  else -((log10 ((den - 1) / num) : Int) + 1)

/-- Which of two equally near neighbours on a grid is taken. -/
inductive Tie where
  | toEven
  | up
deriving DecidableEq, Repr

/-- The choice between `d` and `d + 1`. -/
def Tie.choose : Tie → Nat → Nat
  | toEven, d => if d % 2 = 0 then d else d + 1
  | up, d => d + 1

/-- The decimals that round to a given double: between `low / den` and `high / den`, the ends
included when the double's significand is even. `value / den` is the double itself. -/
structure Interval where
  low : Nat
  value : Nat
  high : Nat
  den : Nat
  closed : Bool
deriving Repr

namespace Interval

/-- The rounding interval of a finite double. Half a unit on each side, but only a quarter below
a power of two, whose lower neighbour is nearer. -/
def ofBinary64 (x : Binary64) : Interval :=
  let m := x.significand
  let e := x.scale - 2
  let below := if m = 0x10000000000000 ∧ 1 < x.exponentField then 1 else 2
  let up := Nat.pow 2 e.toNat
  { low := (4 * m - below) * up
    value := 4 * m * up
    high := (4 * m + 2) * up
    den := Nat.pow 2 (-e).toNat
    closed := m % 2 == 0 }

/-- `d * 10 ^ k` over the denominator `den * 10 ^ (-k)`. -/
def gridPoint (i : Interval) (d : Nat) (k : Int) : Nat := d * Nat.pow 10 k.toNat * i.den

/-- Whether the decimal `d * 10 ^ k` lies in the interval. -/
def contains (i : Interval) (d : Nat) (k : Int) : Bool :=
  let p := i.gridPoint d k
  let s := Nat.pow 10 (-k).toNat
  if i.closed then i.low * s ≤ p && p ≤ i.high * s else i.low * s < p && p < i.high * s

/-- The distance of `d * 10 ^ k` from the value, in units of `1 / (den * 10 ^ (-k))`. -/
def distance (i : Interval) (d : Nat) (k : Int) : Nat :=
  let p := i.gridPoint d k
  let v := i.value * Nat.pow 10 (-k).toNat
  (p - v) + (v - p)

/-- The point of the grid `10 ^ k` that represents the interval: one of the value's two
neighbours on that grid. -/
def hit? (tie : Tie) (i : Interval) (k : Int) : Option Nat :=
  let d := i.value * Nat.pow 10 (-k).toNat / (i.den * Nat.pow 10 k.toNat)
  match i.contains d k, i.contains (d + 1) k with
  | false, false => none
  | true, false => some d
  | false, true => some (d + 1)
  | true, true =>
    if i.distance d k < i.distance (d + 1) k then some d
    else if i.distance (d + 1) k < i.distance d k then some (d + 1)
    else some (tie.choose d)

/-- The first hit on grids of growing fineness, from `10 ^ k` on. -/
def search (tie : Tie) (i : Interval) : Nat → Int → Decimal
  | 0, k => ⟨i.value * Nat.pow 10 (-k).toNat / (i.den * Nat.pow 10 k.toNat), k⟩
  | n + 1, k =>
    match i.hit? tie k with
    | some d => ⟨d, k⟩
    | none => search tie i n (k - 1)

end Interval

/-- The shortest decimal of a finite double; seventeen digits always suffice. -/
def shortest (tie : Tie) (x : Binary64) : Decimal :=
  if x.significand = 0 then ⟨0, 0⟩
  else
    let i := Interval.ofBinary64 x
    (i.search tie 17 (decimalExponent i.value i.den)).trim

end Telemetry.Number
