/-
How large and how small the decimals are that doubles are written with. The bounds keep every step
of the reader finite; near the largest double they hold by one unit of the last digit.
-/
import Telemetry.Proofs.Number.Arithmetic
import Telemetry.Proofs.Number.Layout

namespace Telemetry.Number

variable {x : Binary64} {tie : Tie}

/-! ## The shortest decimal of any double -/

theorem shortest_of_zero (tie : Tie) (h : x.significand = 0) : shortest tie x = ⟨0, 0⟩ := if_pos h

/-- The shortest decimal lies in the rounding interval, the zeros included. -/
theorem holds_shortest (tie : Tie) (x : Binary64) :
    (Interval.ofBinary64 x).Holds (shortest tie x).worth := by
  obtain hzero | hpos := Nat.eq_zero_or_pos x.significand
  · rw [shortest_of_zero tie hzero, show (Decimal.worth ⟨0, 0⟩) = 0 by simp [Decimal.worth]]
    exact (Binary64.holds_zero_iff x).2 hzero
  · exact (shortest_spec tie hpos).1

/-- The sign has no part in the digits. -/
theorem shortest_congr {y : Binary64} (tie : Tie) (h : x.magnitude = y.magnitude) :
    shortest tie x = shortest tie y := by
  have hexponent : x.exponentField = y.exponentField := by
    unfold Binary64.exponentField
    rw [h]
  have hsignificand : x.significand = y.significand := by
    unfold Binary64.significand
    rw [hexponent, h]
  have hscale : x.scale = y.scale := by
    unfold Binary64.scale
    rw [hexponent]
  have hinterval : Interval.ofBinary64 x = Interval.ofBinary64 y := by
    unfold Interval.ofBinary64
    rw [hsignificand, hscale, hexponent]
  unfold shortest
  rw [hsignificand, hinterval]

/-! ## The end of the range -/

/-- Half a unit above the largest double: what is not below it rounds to infinity. -/
def overflow : ℕ := (2 ^ 54 - 1) * 2 ^ 970

theorem overflow_lt : overflow < 10 ^ 309 := by decide +kernel

theorem worth_le_overflow (tie : Tie) (hx : x.isFinite = true) :
    (shortest tie x).worth ≤ overflow := by
  have hhigh := (holds_shortest tie x).ends.2
  rw [div_le_iff₀ (two_zpow_pos _)] at hhigh
  have hm : (x.significand : ℚ) ≤ 2 ^ 53 - 1 := by
    have : (x.significand : ℚ) + 1 ≤ 2 ^ 53 := by exact_mod_cast Binary64.significand_lt x
    linarith
  have hscale : (2 : ℚ) ^ x.scale ≤ 2 * 2 ^ 970 := by
    rw [← pow_succ', ← zpow_natCast]
    exact zpow_le_zpow_right₀ (by norm_num) (Binary64.scale_le hx)
  have hcast : (overflow : ℚ) = (2 ^ 54 - 1) * 2 ^ 970 := by
    unfold overflow
    rw [Nat.cast_mul, Nat.cast_pow, Nat.cast_sub (by norm_num), Nat.cast_pow]
    norm_num only [Nat.cast_ofNat, Nat.cast_one]
  have hpos := two_zpow_pos x.scale
  rw [hcast]
  calc (shortest tie x).worth ≤ ((x.significand : ℚ) + 1 / 2) * 2 ^ x.scale := hhigh
    _ ≤ (2 ^ 53 - 1 / 2) * (2 * 2 ^ 970) := by
      apply mul_le_mul _ hscale hpos.le (by norm_num)
      linarith
    _ = (2 ^ 54 - 1) * 2 ^ 970 := by
      generalize (2 : ℚ) ^ 970 = t
      ring

/-- The largest double. -/
def largest : Binary64 := ⟨0x7fefffffffffffff⟩

theorem Decimal.worth_of_nonneg {d : Decimal} (h : 0 ≤ d.exponent) :
    d.worth = (d.digits * 10 ^ d.exponent.toNat : ℕ) := by
  obtain ⟨n, hn⟩ := Int.eq_ofNat_of_zero_le h
  unfold worth
  rw [hn, zpow_natCast, Int.toNat_natCast, Nat.cast_mul, Nat.cast_pow, Nat.cast_ofNat]

/-- The one decimal that rounds to a double, but that the reader takes for infinite, is never
written: its double has a nearer one. -/
theorem shortest_ne_overflowing (hx : x.isFinite = true) :
    shortest .toEven x ≠ ⟨17976931348623158, 292⟩ := by
  intro h
  have hexp : 0 ≤ (shortest .toEven x).exponent := by
    rw [h]
    decide
  have hround : x.magnitude = Binary64.roundQuotient
      ((shortest .toEven x).digits * 10 ^ (shortest .toEven x).exponent.toNat) 1 := by
    rw [Binary64.roundQuotient_eq_roundRat _ Nat.one_pos, Nat.cast_one, div_one,
      ← Decimal.worth_of_nonneg hexp, eq_comm]
    exact (Binary64.roundRat_eq_iff hx (by rw [Decimal.worth_of_nonneg hexp]; positivity)).2
      (holds_shortest .toEven x)
  rw [h] at hround
  have hlargest : x.magnitude = largest.magnitude := hround.trans (by decide +kernel)
  rw [shortest_congr .toEven hlargest] at h
  exact absurd h (by decide +kernel)

/-- The most that the digits in front of a power of ten may be worth. -/
def mostDigits (e : ℕ) : ℕ :=
  if e < 292 then 10 ^ 17 else overflow / 10 ^ e - if e = 292 then 1 else 0

/-- The decimals that stand in the texts of doubles. -/
structure Decimal.Written (d : Decimal) : Prop where
  digits_le : d.digits ≤ 10 ^ 17
  exponent_ge : -340 ≤ d.exponent
  exponent_le : d.exponent ≤ 308
  digits_pos : d.exponent < -1 → 0 < d.digits
  digits_most : 0 ≤ d.exponent → d.digits ≤ mostDigits d.exponent.toNat

namespace Decimal.Written

variable {d : Decimal}

theorem log10_le (h : d.Written) : log10 d.digits ≤ 17 := by
  obtain hzero | hpos := Nat.eq_zero_or_pos d.digits
  · rw [hzero, log10, if_pos (by norm_num)]
    norm_num
  · have hle : 10 ^ log10 d.digits ≤ 10 ^ 17 := (log10_bounds hpos).1.trans h.digits_le
    exact (Nat.pow_le_pow_iff_right (by norm_num)).1 hle

/-- The exponent part of a double's text is never taken for infinite. -/
theorem leading_le (h : d.Written) : d.leading.natAbs ≤ Numeral.largestPower := by
  have := h.log10_le
  have := h.exponent_ge
  have := h.exponent_le
  unfold Decimal.leading Numeral.largestPower
  omega

/-- The zero behind the point still fits. -/
theorem asWritten (h : d.Written) : d.asWritten.Written := by
  unfold Decimal.asWritten
  split
  · -- in front of the point stand sixteen digits at most
    rename_i hpos
    obtain ⟨hlead, hexp⟩ := hpos
    obtain ⟨n, hn⟩ := Int.eq_ofNat_of_zero_le hexp
    have hshort : n + log10 d.digits ≤ 15 := by
      unfold isPositional Decimal.leading at hlead
      simp only [Bool.and_eq_true, decide_eq_true_eq] at hlead
      omega
    have hdigits : d.digits * 10 ^ (d.exponent.toNat + 1) ≤ 10 ^ 17 := by
      rw [hn, Int.toNat_natCast]
      obtain hzero | hpos := Nat.eq_zero_or_pos d.digits
      · rw [hzero, Nat.zero_mul]
        exact Nat.zero_le _
      · calc d.digits * 10 ^ (n + 1) ≤ 10 ^ (log10 d.digits + 1) * 10 ^ (n + 1) :=
              Nat.mul_le_mul_right _ (log10_bounds hpos).2.le
          _ = 10 ^ (log10 d.digits + 1 + (n + 1)) := (pow_add 10 _ _).symm
          _ ≤ 10 ^ 17 := Nat.pow_le_pow_right (by norm_num) (by omega)
    refine ⟨hdigits, ?_, ?_, ?_, ?_⟩ <;> simp
  · exact h

end Decimal.Written

/-! ## The written decimal of a finite double -/

theorem exponent_ge (tie : Tie) (hx : 0 < x.significand) : -340 ≤ (shortest tie x).exponent := by
  have hvalue : 0 < (Interval.ofBinary64 x).value :=
    Nat.mul_pos (by omega) (Nat.pow_pos (by norm_num))
  obtain ⟨-, hnext⟩ := decimalExponent_bounds hvalue (Interval.den_pos x)
  obtain ⟨-, -, -, hexp⟩ := shortest_spec tie hx
  rw [Interval.value_eq] at hnext
  generalize decimalExponent (Interval.ofBinary64 x).value (Interval.ofBinary64 x).den = e at *
  have hsmallest : (10 : ℚ) ^ (-324 : ℤ) ≤ x.size := by
    have hm : (1 : ℚ) ≤ x.significand := by exact_mod_cast hx
    have hpow : (2 : ℕ) ^ 1074 ≤ 10 ^ 324 := by decide +kernel
    calc (10 : ℚ) ^ (-324 : ℤ) ≤ 2 ^ (-1074 : ℤ) := by
          rw [zpow_neg, zpow_neg, inv_le_inv₀ (ten_zpow_pos _) (two_zpow_pos _)]
          exact_mod_cast hpow
      _ ≤ 1 * 2 ^ x.scale := by
        rw [one_mul]
        exact zpow_le_zpow_right₀ (by norm_num) (Binary64.scale_ge x)
      _ ≤ x.size := by
        unfold Binary64.size
        gcongr
  have hlt : (-324 : ℤ) < e + 1 := by
    rw [← zpow_lt_zpow_iff_right₀ (by norm_num : (1 : ℚ) < 10)]
    linarith
  omega

theorem written_shortest (hx : x.isFinite = true) : (shortest .toEven x).Written := by
  obtain hzero | hpos := Nat.eq_zero_or_pos x.significand
  · rw [shortest_of_zero _ hzero]
    refine ⟨?_, ?_, ?_, ?_, ?_⟩ <;> simp
  obtain ⟨-, hdigits, hle, -⟩ := shortest_spec .toEven hpos
  have hworth := worth_le_overflow .toEven hx
  have hne := shortest_ne_overflowing hx
  have hlow := exponent_ge .toEven hpos
  generalize shortest .toEven x = d at *
  have hmost : 0 ≤ d.exponent → d.digits * 10 ^ d.exponent.toNat ≤ overflow := by
    intro hexp
    rw [Decimal.worth_of_nonneg hexp] at hworth
    exact_mod_cast hworth
  refine ⟨hle, hlow, ?_, fun _ => hdigits, ?_⟩
  · -- with a larger exponent a single digit would be too much
    by_contra hbig
    have hexp : 309 ≤ d.exponent.toNat := by omega
    have hlarge : overflow < 10 ^ d.exponent.toNat :=
      overflow_lt.trans_le (pow_le_pow_right₀ (by norm_num) hexp)
    have := Nat.le_mul_of_pos_left (10 ^ d.exponent.toNat) hdigits
    have := hmost (by omega)
    omega
  · intro hexp
    have h1 : d.digits ≤ overflow / 10 ^ d.exponent.toNat := by
      rw [Nat.le_div_iff_mul_le (Nat.pow_pos (by norm_num))]
      exact hmost hexp
    unfold mostDigits
    by_cases hsmall : d.exponent.toNat < 292
    · rw [if_pos hsmall]
      exact hle
    rw [if_neg hsmall]
    by_cases h292 : d.exponent.toNat = 292
    · have hquot : overflow / 10 ^ 292 = 17976931348623158 := by decide +kernel
      rw [if_pos h292]
      rw [h292, hquot] at h1 ⊢
      have : d.digits ≠ 17976931348623158 := by
        intro hd
        apply hne
        obtain ⟨digits, exponent⟩ := d
        simp only at hd h292 hexp
        rw [hd, show exponent = 292 by omega]
      omega
    · rw [if_neg h292]
      exact h1

end Telemetry.Number
