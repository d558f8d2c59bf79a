/-
Numbers as they stand in a document: the parts of the text, and what they are worth. Whole numbers
that fit a machine word are exact. Everything else becomes a double in three roundings at most: the
digits are gathered into an unsigned word, which is turned into a double and then multiplied or
divided by a power of ten that is a double itself.
-/
import Telemetry.Number.Binary64

namespace Telemetry.Number

/-- The exponent part of a numeral. -/
structure TenPower where
  negative : Bool
  digits : List Nat
deriving DecidableEq, Repr

/-- A number's text, taken apart: digits are values below ten. -/
structure Numeral where
  negative : Bool
  whole : List Nat
  fraction : Option (List Nat)
  power : Option TenPower
deriving DecidableEq, Repr

/-- The worth of a numeral: a natural number or a negative integer of 64 bits, or a double. -/
inductive Reading where
  | natural (n : UInt64)
  | negative (n : Int64)
  | double (x : Binary64)
deriving DecidableEq, Repr

/-- The worth of a row of digits. -/
def digitsValue (ds : List Nat) : Nat := ds.foldl (fun n d => n * 10 + d) 0

/-- Gathers digits into a word. Stops in front of the first digit that would overflow it, and says
how many digits were taken. -/
def gather (n : Nat) (taken : Nat) : List Nat → Nat × Nat
  | [] => (n, taken)
  | d :: ds => if n * 10 + d < 0x10000000000000000 then gather (n * 10 + d) (taken + 1) ds else (n, taken)

/-- The largest power of ten that is used as a factor. -/
def largestTenPower : Nat := 308

/-- `f * 10 ^ e`, by one factor when `e` is small. A large negative `e` is first reduced by dividing
by `10 ^ 308`, until nothing is left; a large positive one is out of range, unless `f` is zero. -/
def scaleByTen (f : Binary64) (e : Int) : Option Binary64 :=
  if e.natAbs ≤ largestTenPower then
    if 0 ≤ e then
      let x := f.mul (Binary64.powerOfTen e.toNat)
      if x.isInfinite then none else some x
    else some (f.div (Binary64.powerOfTen (-e).toNat))
  else if f.isZero then some f
  else if 0 < e then none
  else scaleByTen (f.div (Binary64.powerOfTen largestTenPower)) (e + largestTenPower)
termination_by e.natAbs
decreasing_by simp only [largestTenPower] at *; omega

namespace Numeral

/-- The significand as a word and its decimal exponent, before the exponent part is applied. Whole
digits that do not fit raise the exponent; fraction digits that do not fit are dropped. -/
def parts (n : Numeral) : Nat × Int :=
  let (w, taken) := gather 0 0 n.whole
  let dropped : Int := (n.whole.length : Int) - taken
  match n.fraction with
  | none => (w, dropped)
  | some ds =>
    let (s, places) := gather w 0 ds
    (s, dropped - places)

def signed (negative : Bool) (x : Binary64) : Binary64 := if negative then x.neg else x

/-- The largest exponent part that is not taken for infinite. -/
def largestPower : Nat := 0x7fffffff

/-- The double that the text stands for, none when it is out of range. -/
def double? (n : Numeral) : Option Binary64 :=
  let (s, e) := n.parts
  let magnitude : Option Binary64 := match n.power with
    | none => scaleByTen (Binary64.ofNat s) e
    | some p =>
      let k := digitsValue p.digits
      if largestPower < k then
        if p.negative ∨ s = 0 then some Binary64.zero else none
      else scaleByTen (Binary64.ofNat s) (if p.negative then e - k else e + k)
  magnitude.map (signed n.negative)

/-- The worth of a numeral, none when it is out of the range of doubles. A numeral with a fraction
or an exponent part is a double, and so are `-0` and a whole number of more than 64 bits. -/
def reading? (n : Numeral) : Option Reading :=
  if n.fraction.isSome ∨ n.power.isSome then n.double?.map .double
  else
    let w := digitsValue n.whole
    if 0x10000000000000000 ≤ w then n.double?.map .double
    else if !n.negative then some (.natural (UInt64.ofNat w))
    else if w = 0 ∨ 0x8000000000000000 < w then some (.double (signed true (Binary64.ofNat w)))
    else some (.negative (Int64.ofInt (-w)))

end Numeral

namespace Reading

/-- Every reading as a double; integers are rounded to the nearest one. -/
def toBinary64 : Reading → Binary64
  | .natural n => Binary64.ofNat n.toNat
  | .negative n => Binary64.ofInt n.toInt
  | .double x => x

end Reading

/-! ## The text of a numeral -/

/-- The value of a digit. -/
def digit? (b : UInt8) : Option Nat :=
  if 48 ≤ b ∧ b ≤ 57 then some (b.toNat - 48) else none

/-- The digits that a text begins with, and the rest. -/
def splitDigits (acc : List Nat) : List UInt8 → List Nat × List UInt8
  | [] => (acc.reverse, [])
  | b :: bs => match digit? b with
    | some d => splitDigits (d :: acc) bs
    | none => (acc.reverse, b :: bs)

/-- The fraction part at the beginning of a text: none inside when there is none, none outside when
no digit follows the point. -/
def readFraction (bs : List UInt8) : Option (Option (List Nat) × List UInt8) :=
  match bs with
  | 46 :: rest => match splitDigits [] rest with
    | ([], _) => none
    | (ds, rest) => some (some ds, rest)
  | _ => some (none, bs)

/-- The exponent part at the beginning of a text. -/
def readPower (bs : List UInt8) : Option (Option TenPower × List UInt8) :=
  match bs with
  | b :: rest =>
    if b = 101 ∨ b = 69 then
      let (negative, rest) := match rest with
        | 45 :: r => (true, r)
        | 43 :: r => (false, r)
        | r => (false, r)
      match splitDigits [] rest with
      | ([], _) => none
      | (ds, rest) => some (some ⟨negative, ds⟩, rest)
    else some (none, bs)
  | [] => some (none, [])

/-- A numeral at the beginning of a text: no leading zeros, and digits on both sides of a point. -/
def readNumeral (bs : List UInt8) : Option (Numeral × List UInt8) := do
  let (negative, rest) := match bs with
    | 45 :: r => (true, r)
    | r => (false, r)
  let (whole, rest) := splitDigits [] rest
  if whole = [] ∨ (1 < whole.length ∧ whole.head? = some 0) then none
  else
    let (fraction, rest) ← readFraction rest
    let (power, rest) ← readPower rest
    return (⟨negative, whole, fraction, power⟩, rest)

/-! ## Reading a numeral uses up text -/

theorem length_splitDigits (acc : List Nat) (bs : List UInt8) :
    (splitDigits acc bs).1.length + (splitDigits acc bs).2.length = acc.length + bs.length := by
  fun_induction splitDigits acc bs <;> simp_all +arith

theorem length_of_readFraction {bs rest : List UInt8} {f : Option (List Nat)}
    (h : readFraction bs = some (f, rest)) : rest.length ≤ bs.length := by
  unfold readFraction at h
  split at h
  · rename_i r
    have := length_splitDigits [] r
    split at h
    · simp at h
    · rename_i ds r' _ hd
      simp only [Option.some.injEq, Prod.mk.injEq] at h
      rw [hd] at this
      simp only [List.length_nil, List.length_cons, ← h.2] at *
      omega
  · simp_all

theorem length_of_readPower {bs rest : List UInt8} {p : Option TenPower}
    (h : readPower bs = some (p, rest)) : rest.length ≤ bs.length := by
  unfold readPower at h
  split at h
  · rename_i b r
    split at h
    · split at h
      rename_i negative r' hr
      have hle : r'.length ≤ r.length := by
        split at hr <;> simp only [Prod.mk.injEq] at hr <;> simp [← hr.2]
      have := length_splitDigits [] r'
      split at h
      · simp at h
      · rename_i ds r'' _ hd
        simp only [Option.some.injEq, Prod.mk.injEq] at h
        rw [hd] at this
        simp only [List.length_nil, List.length_cons, ← h.2] at *
        omega
    · simp_all
  · simp_all

theorem length_of_readNumeral {bs rest : List UInt8} {n : Numeral}
    (h : readNumeral bs = some (n, rest)) : rest.length < bs.length := by
  unfold readNumeral at h
  split at h
  rename_i negative r hr
  have hle : r.length ≤ bs.length := by
    split at hr <;> simp only [Prod.mk.injEq] at hr <;> simp [← hr.2]
  have hs := length_splitDigits [] r
  split at h
  rename_i whole r' hd
  rw [hd] at hs
  split at h
  · simp at h
  · rename_i hne
    have hpos : 0 < whole.length := by
      apply List.length_pos_iff.2
      intro hw
      exact hne (Or.inl hw)
    simp only [Option.bind_eq_bind, Option.bind_eq_some_iff] at h
    obtain ⟨⟨f, r1⟩, h1, ⟨p, r2⟩, h2, h3⟩ := h
    have l1 := length_of_readFraction h1
    have l2 : r2.length ≤ r1.length := length_of_readPower h2
    simp only [Option.pure_def, Option.some.injEq, Prod.mk.injEq] at h3
    simp only [List.length_nil] at hs
    rw [← h3.2]
    omega

end Telemetry.Number
