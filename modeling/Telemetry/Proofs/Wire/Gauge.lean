/-
A gauge on its way over the wire. Its name arrives as it was sent and its value as a finite double
of the same sign, but the last bits of the value only arrive when the reader's roundings of the
digits and of the power of ten cancel out.
-/
import Telemetry.Proofs.Number.Reread
import Telemetry.Proofs.Wire.Object

namespace Telemetry

open Json (Token)
open Number (Binary64 Interval shortest)
open Text.Utf8 (encode)

namespace Wire

variable {x : Binary64}

/-- The numeral that a finite double is written as. -/
def gaugeNumeral (x : Binary64) : Number.Numeral := (shortest .toEven x).numeral x.isNegative

theorem wellFormed_gaugeNumeral (x : Binary64) : (gaugeNumeral x).WellFormed := by
  apply Number.Decimal.wellFormed_numeral
  obtain hzero | hpos := Nat.eq_zero_or_pos x.significand
  · rw [Number.shortest_of_zero _ hzero]
    exact Or.inr rfl
  · obtain ⟨-, hdigits, -⟩ := Number.shortest_spec .toEven hpos
    exact Or.inl hdigits

/-- A double is never written as an integer: it has a fraction part or an exponent part. -/
theorem reading?_gaugeNumeral (hx : x.isFinite = true) :
    (gaugeNumeral x).reading? = some (.double x.returned) := by
  have hpart : (gaugeNumeral x).fraction.isSome = true ∨ (gaugeNumeral x).power.isSome = true := by
    unfold gaugeNumeral Number.Decimal.numeral Number.Decimal.inPlace Number.Decimal.scaled
    simp only
    split
    · left
      split
      · rfl
      · split <;> rfl
    · exact Or.inr rfl
  unfold Number.Numeral.reading?
  rw [if_pos hpart]
  unfold gaugeNumeral
  rw [Binary64.double?_numeral hx]
  rfl

/-- A finite gauge's text is one number token. -/
theorem scanFrom_gauge (hx : x.isFinite = true) (acc : List Token) (rest : List UInt8) :
    Json.scanFrom acc (encode (Value.gauge x).wireChars ++ 125 :: rest) =
      Json.scanFrom (.number (gaugeNumeral x) :: acc) (125 :: rest) := by
  have hends : Number.Ends (125 :: rest) := by
    intro b hb
    obtain rfl : 125 = b := Option.some.inj hb
    decide
  have htext : (Value.gauge x).wireChars = (gaugeNumeral x).chars :=
    (if_pos hx).trans (Number.wireChars_eq x)
  rw [htext]
  exact Json.scanFrom_numeral (wellFormed_gaugeNumeral x) hends

/-- The record that a finite gauge's text holds. -/
theorem decodeRecord_gauge (name : String) (hx : x.isFinite = true) :
    decodeRecord (encode (Record.gauge name x).wireChars) = .ok (Record.gauge name x.returned) := by
  have hscan := (Record.gauge name x).scanFrom_wireChars [] [] fun acc => scanFrom_gauge hx acc []
  have hvalue (rest : List Token) :
      (named (Record.gauge name x)).readField (valueField Kind.gauge)
        (.number (gaugeNumeral x) :: .mapClose :: rest) =
        .ok ({ named (Record.gauge name x) with value := some (some x.returned) },
          .mapClose :: rest) := by
    simp only [valueField, Draft.readField, readValue, reading?_gaugeNumeral hx]
    rfl
  have hdraft := readDraft_tokens [] (hvalue [])
  rw [List.append_nil, List.append_nil, Json.scanFrom_nil, List.reverse_reverse] at hscan
  rw [List.append_nil] at hdraft
  unfold decodeRecord readRecord Json.scan
  rw [hscan, hdraft]
  rfl

/-- Every finite gauge is read back as a finite gauge of the same name and sign. Its bits are the
same exactly when the number that the reader rounds last lies in the value's rounding interval, and
they are whenever the digits as written fit 53 bits and the power of ten is at most the
twenty-second. -/
theorem gauge_survives_iff (name : String) (x : Binary64) (hx : x.isFinite = true) :
    ∃ y, decodeRecord (encode (Record.gauge name x).wireChars) = .ok (Record.gauge name y) ∧
      y.isFinite = true ∧ y.isNegative = x.isNegative ∧
      (y.bits = x.bits ↔
        (Interval.ofBinary64 x).Holds (shortest .toEven x).asWritten.unrounded) ∧
      ((shortest .toEven x).asWritten.digits ≤ 2 ^ 53 →
        (shortest .toEven x).asWritten.exponent.natAbs ≤ 22 → y.bits = x.bits) := by
  obtain ⟨hfinite, hsign, -⟩ := Binary64.returned_parts hx
  refine ⟨x.returned, decodeRecord_gauge name hx, hfinite, hsign, ?_, ?_⟩
  · rw [← Binary64.returned_eq_iff hx]
    constructor
    · intro h
      cases hr : x.returned
      cases x
      simp_all
    · intro h
      rw [h]
  · intro hdigits hexp
    rw [Binary64.returned_eq_of_short hx hdigits hexp]

theorem gauge_survives_iff_three_halves :
    (⟨0x3ff8000000000000⟩ : Binary64).isFinite = true ∧
      ∃ y, decodeRecord (encode (Record.gauge "load" ⟨0x3ff8000000000000⟩).wireChars) =
          .ok (Record.gauge "load" y) ∧
        y.isFinite = true ∧ y.isNegative = (⟨0x3ff8000000000000⟩ : Binary64).isNegative ∧
        (y.bits = 0x3ff8000000000000 ↔ (Interval.ofBinary64 ⟨0x3ff8000000000000⟩).Holds
          (shortest .toEven ⟨0x3ff8000000000000⟩).asWritten.unrounded) ∧
        ((shortest .toEven ⟨0x3ff8000000000000⟩).asWritten.digits ≤ 2 ^ 53 →
          (shortest .toEven ⟨0x3ff8000000000000⟩).asWritten.exponent.natAbs ≤ 22 →
            y.bits = 0x3ff8000000000000) :=
  ⟨by decide, gauge_survives_iff "load" ⟨0x3ff8000000000000⟩ (by decide)⟩

/-- `7205759403792796.0`: its seventeen digits as written do not fit 53 bits, and the value comes
back one unit in the last place higher. -/
theorem gauge_loses_last_bit :
    decodeRecord (encode (Record.gauge "load" ⟨0x433999999999999c⟩).wireChars) =
        .ok (Record.gauge "load" ⟨0x433999999999999d⟩) ∧
      (⟨0x433999999999999c⟩ : Binary64).isFinite = true ∧
      (0x433999999999999d : UInt64) ≠ 0x433999999999999c := by
  have hreturned : Binary64.returned ⟨0x433999999999999c⟩ = ⟨0x433999999999999d⟩ := by
    decide +kernel
  refine ⟨?_, by decide, by decide⟩
  rw [decodeRecord_gauge "load" (by decide), hreturned]

end Wire

end Telemetry
