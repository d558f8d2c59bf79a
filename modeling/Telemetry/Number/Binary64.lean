/-
A gauge value: an IEEE 754 double held as its 64 bits, with the exact `Nat` arithmetic that rounds
a quotient to the nearest double (half to even). Products and quotients of doubles are defined
through that rounding, so nothing here depends on the machine's floating point unit.
-/

namespace Telemetry.Number

/-- A double precision value, as its bit pattern: sign, eleven exponent bits, 52 fraction bits. -/
structure Binary64 where
  bits : UInt64
deriving DecidableEq, Repr

namespace Binary64

/-- The bits without the sign. Their order is the order of the magnitudes. -/
def magnitude (x : Binary64) : Nat := x.bits.toNat % 0x8000000000000000

/-- The sign bit; it is also set on the negative zero. -/
def isNegative (x : Binary64) : Bool := 0x8000000000000000 ≤ x.bits.toNat

/-- The magnitude bits of infinity: exponent bits all set, fraction zero. -/
def infinityBits : Nat := 2047 * 0x10000000000000

/-- The double of a sign and of magnitude bits below `2 ^ 63`. -/
def ofMagnitude (negative : Bool) (magnitude : Nat) : Binary64 :=
  ⟨UInt64.ofNat (magnitude + if negative then 0x8000000000000000 else 0)⟩

def zero : Binary64 := ⟨0⟩

def infinity (negative : Bool) : Binary64 := ofMagnitude negative infinityBits

/-- The quiet NaN with no further payload. -/
def nan : Binary64 := ⟨0x7ff8000000000000⟩

def isFinite (x : Binary64) : Bool := x.magnitude < infinityBits

def isInfinite (x : Binary64) : Bool := x.magnitude == infinityBits

def isNaN (x : Binary64) : Bool := infinityBits < x.magnitude

def isZero (x : Binary64) : Bool := x.magnitude == 0

/-- Both zeros are equal and a NaN differs from everything, itself included. -/
def ieeeEq (x y : Binary64) : Bool :=
  !x.isNaN && !y.isNaN && (x.bits == y.bits || (x.isZero && y.isZero))

def abs (x : Binary64) : Binary64 := ofMagnitude false x.magnitude

def neg (x : Binary64) : Binary64 := ofMagnitude (!x.isNegative) x.magnitude

/-- The exponent bits. -/
def exponentField (x : Binary64) : Nat := x.magnitude / 0x10000000000000

/-- The whole number `m` in `m * 2 ^ scale`, the magnitude of a finite value: the fraction bits,
with the leading bit added unless the value is subnormal. -/
def significand (x : Binary64) : Nat :=
  if x.exponentField = 0 then x.magnitude % 0x10000000000000 else 0x10000000000000 + x.magnitude % 0x10000000000000

/-- The power of two in `significand * 2 ^ scale`. -/
def scale (x : Binary64) : Int := max (x.exponentField : Int) 1 - 1075

/-- The whole number nearest to `num / den`, the even one of two. -/
def nearest (num den : Nat) : Nat :=
  let q := num / den
  let r := num % den
  if 2 * r < den ∨ (2 * r = den ∧ q % 2 = 0) then q else q + 1

/-- `num / den * 2 ^ (-e)` as a pair of whole numbers. -/
def shifted (num den : Nat) (e : Int) : Nat × Nat :=
  (num * Nat.pow 2 (-e).toNat, den * Nat.pow 2 e.toNat)

/-- The exponent of the unit in the last place for `num / den`: 52 below that of its leading bit,
and never below that of the smallest subnormal. -/
def unitExponent (num den : Nat) : Int :=
  let guess : Int := (num.log2 : Int) - (den.log2 : Int) - 52
  let (n, d) := shifted num den guess
  max (if n / d < 0x10000000000000 then guess - 1 else guess) (-1074)

/-- The magnitude bits of the double nearest to `num / den`, half to even, too large a quotient
being infinite. A significand that rounds up to `2 ^ 53` carries into the exponent bits. -/
def roundQuotient (num den : Nat) : Nat :=
  if num = 0 then 0
  else
    let e := unitExponent num den
    let (n, d) := shifted num den e
    min ((e + 1074).toNat * 0x10000000000000 + nearest n d) infinityBits

/-- The double nearest to `±num / den`. -/
def ofQuotient (negative : Bool) (num den : Nat) : Binary64 :=
  ofMagnitude negative (roundQuotient num den)

/-- The double nearest to a whole number. -/
def ofNat (n : Nat) : Binary64 := ofQuotient false n 1

def ofInt (n : Int) : Binary64 := ofQuotient (decide (n < 0)) n.natAbs 1

/-- The double nearest to `10 ^ k`. -/
def powerOfTen (k : Nat) : Binary64 := ofNat (Nat.pow 10 k)

/-- The rounded product. -/
def mul (x y : Binary64) : Binary64 :=
  let negative := x.isNegative != y.isNegative
  if x.isNaN || y.isNaN then nan
  else if x.isInfinite || y.isInfinite then
    if x.isZero || y.isZero then nan else infinity negative
  else
    let e := x.scale + y.scale
    ofQuotient negative (x.significand * y.significand * Nat.pow 2 e.toNat) (Nat.pow 2 (-e).toNat)

/-- The rounded quotient. -/
def div (x y : Binary64) : Binary64 :=
  let negative := x.isNegative != y.isNegative
  if x.isNaN || y.isNaN then nan
  else if x.isInfinite then
    if y.isInfinite then nan else infinity negative
  else if y.isInfinite then ofMagnitude negative 0
  else if y.isZero then
    if x.isZero then nan else infinity negative
  else
    let e := x.scale - y.scale
    ofQuotient negative (x.significand * Nat.pow 2 e.toNat) (y.significand * Nat.pow 2 (-e).toNat)

end Binary64

end Telemetry.Number
