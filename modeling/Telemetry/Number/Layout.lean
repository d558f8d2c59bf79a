/-
How the digits of a double are laid out: positional with at least one fraction digit, or scientific
with a signed exponent. The wire uses both, by the size of the number, and of two equally near
shortest decimals it has the one with an even last digit. Messages about settings are always
positional, and have the greater one.
-/
import Telemetry.Number.Shortest

namespace Telemetry.Number

/-- The decimal digits of a number, most significant first. -/
def digitChars (n : Nat) : List Char :=
  if n < 10 then [Char.ofNat (48 + n)]
  else digitChars (n / 10) ++ [Char.ofNat (48 + n % 10)]
termination_by n
decreasing_by omega

def natText (n : Nat) : String := String.ofList (digitChars n)

def intText (n : Int) : String :=
  if n < 0 then "-" ++ natText n.natAbs else natText n.natAbs

/-- `5.0`, `0.00001`, `12.5`: every digit in its place. -/
def positional (d : Decimal) : List Char :=
  let ds := digitChars d.digits
  if 0 ≤ d.exponent then ds ++ List.replicate d.exponent.toNat '0' ++ ['.', '0']
  else
    let places := (-d.exponent).toNat
    if places < ds.length then ds.take (ds.length - places) ++ '.' :: ds.drop (ds.length - places)
    else '0' :: '.' :: (List.replicate (places - ds.length) '0' ++ ds)

/-- `1e+16`, `1.5e-7`: one digit before the point. -/
def scientific (d : Decimal) : List Char :=
  let e := d.leading
  let fraction := match digitChars d.digits with
    | [] => []
    | [c] => [c]
    | c :: cs => c :: '.' :: cs
  fraction ++ 'e' :: (if e < 0 then '-' else '+') :: digitChars e.natAbs

/-- The exponents of the first digit that are written positionally on the wire. -/
def isPositional (leading : Int) : Bool := -5 ≤ leading && leading ≤ 15

/-- A finite double as it is written on the wire. -/
def wireChars (x : Binary64) : List Char :=
  let d := shortest .toEven x
  let body := if isPositional d.leading then positional d else scientific d
  if x.isNegative then '-' :: body else body

def wireText (x : Binary64) : String := String.ofList (wireChars x)

/-- A double in a message about a setting: positional at any size. -/
def plainText (x : Binary64) : String :=
  if x.isNaN then "NaN"
  else
    let body := if x.isInfinite then "inf" else String.ofList (positional (shortest .up x))
    if x.isNegative then "-" ++ body else body

end Telemetry.Number
