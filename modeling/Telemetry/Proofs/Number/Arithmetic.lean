/-
The operations on doubles as operations on rational numbers: exact first, rounded once. Rounding
keeps the order, leaves a double alone, and is exact on short integers.
-/
import Telemetry.Proofs.Number.Interval

namespace Telemetry.Number.Binary64

variable {x y : Binary64} {p q : ℚ}

/-! ## Rounding a rational number -/

/-- The magnitude bits of the double nearest to a number that is not negative. -/
def roundRat (q : ℚ) : ℕ := roundQuotient q.num.toNat q.den

theorem cast_num_div_den (hq : 0 ≤ q) : ((q.num.toNat : ℕ) : ℚ) / q.den = q := by
  have hnum : ((q.num.toNat : ℕ) : ℤ) = q.num := Int.toNat_of_nonneg (Rat.num_nonneg.2 hq)
  have hcast : ((q.num.toNat : ℕ) : ℚ) = q.num := by exact_mod_cast hnum
  rw [hcast]
  exact Rat.num_div_den q

theorem roundQuotient_eq_roundRat (num : ℕ) {den : ℕ} (hd : 0 < den) :
    roundQuotient num den = roundRat ((num : ℚ) / den) := by
  apply roundQuotient_congr hd (Rat.pos _)
  rw [cast_num_div_den (by positivity)]

theorem roundRat_mono (hp : 0 ≤ p) (h : p ≤ q) : roundRat p ≤ roundRat q := by
  apply roundQuotient_mono (Rat.pos _) (Rat.pos _)
  rw [cast_num_div_den hp, cast_num_div_den (hp.trans h)]
  exact h

theorem roundRat_le (q : ℚ) : roundRat q ≤ infinityBits := by
  unfold roundRat roundQuotient
  split
  · exact Nat.zero_le _
  · exact Nat.min_le_right _ _

theorem roundRat_zero : roundRat 0 = 0 := rfl

theorem holds_zero_iff (x : Binary64) : (Interval.ofBinary64 x).Holds 0 ↔ x.significand = 0 := by
  constructor
  · intro h
    by_contra hm
    have hcut := h.ends.1
    have hb := Interval.below_le x
    have hpos : (0 : ℚ) < (4 * x.significand - Interval.below x : ℕ) := by
      exact_mod_cast (by omega : 0 < 4 * x.significand - Interval.below x)
    rw [zero_div] at hcut
    linarith
  · intro h
    rw [Interval.holds_iff, h]
    norm_num

theorem significand_eq_zero_iff (x : Binary64) : x.significand = 0 ↔ x.magnitude = 0 := by
  rw [magnitude_eq_place]
  have hscale := scale_ge x
  have hnormal := significand_ge (x := x)
  unfold place
  omega

/-- A number rounds to a finite double exactly when it lies in the double's interval. -/
theorem roundRat_eq_iff (hx : x.isFinite = true) (hq : 0 ≤ q) :
    roundRat q = x.magnitude ↔ (Interval.ofBinary64 x).Holds q := by
  obtain rfl | hpos := hq.eq_or_lt
  · rw [holds_zero_iff, significand_eq_zero_iff, roundRat_zero]
    exact eq_comm
  · have hnum : 0 < q.num.toNat := by
      have := Rat.num_pos.2 hpos
      omega
    have := roundQuotient_eq_iff hx hnum q.den_pos
    rw [cast_num_div_den hq] at this
    exact this

theorem holds_size (x : Binary64) : (Interval.ofBinary64 x).Holds x.size := by
  have hp := two_zpow_pos x.scale
  have hscaled : x.size / 2 ^ x.scale = x.significand := by
    unfold size
    field_simp
  apply Interval.holds_of_isNearest
  · rw [hscaled]
    exact IsNearest.natCast _
  · intro hnormal
    rw [hscaled]
    exact_mod_cast significand_ge hnormal
  · unfold size
    positivity

theorem size_nonneg (x : Binary64) : 0 ≤ x.size :=
  mul_nonneg (Nat.cast_nonneg _) (two_zpow_pos _).le

/-- A finite double is its own rounding. -/
theorem roundRat_size (hx : x.isFinite = true) : roundRat x.size = x.magnitude :=
  (roundRat_eq_iff hx (size_nonneg x)).2 (holds_size x)

theorem size_mono (h : x.magnitude ≤ y.magnitude) : x.size ≤ y.size := by
  rw [magnitude_eq_place, magnitude_eq_place] at h
  have hx := significand_lt x
  have hy := significand_lt y
  have hx' := significand_ge (x := x)
  have hy' := significand_ge (x := y)
  have hsx := scale_ge x
  have hsy := scale_ge y
  unfold place at h
  unfold size
  rcases lt_trichotomy x.scale y.scale with hlt | heq | hgt
  · -- a normal significand is at least half of any other, and its unit at least twice as large
    have hm : (x.significand : ℚ) ≤ 2 * y.significand := by
      exact_mod_cast (by have := hy' (by omega); omega : x.significand ≤ 2 * y.significand)
    have hscale : (2 : ℚ) * 2 ^ x.scale ≤ 2 ^ y.scale := by
      rw [mul_comm, ← zpow_add_one₀ (by norm_num)]
      exact zpow_le_zpow_right₀ (by norm_num) (by omega)
    calc (x.significand : ℚ) * 2 ^ x.scale ≤ 2 * y.significand * 2 ^ x.scale := by gcongr
      _ = y.significand * (2 * 2 ^ x.scale) := by ring
      _ ≤ y.significand * 2 ^ y.scale := by gcongr
  · rw [heq] at h ⊢
    have hm : (x.significand : ℚ) ≤ y.significand := by
      exact_mod_cast (by omega : x.significand ≤ y.significand)
    gcongr
  · have := hx' (by omega)
    omega

/-- The size behind given magnitude bits. -/
theorem size_of_place {e : ℤ} {k : ℕ} (he : -1074 ≤ e) (hk : k ≤ 2 ^ 53)
    (hlow : -1074 < e → 2 ^ 52 ≤ k) (h : x.magnitude = place e k) : x.size = k * 2 ^ e := by
  rw [magnitude_eq_place] at h
  unfold size
  rcases place_inj he (scale_ge x) hk (significand_lt x) hlow significand_ge h.symm
    with ⟨rfl, rfl⟩ | ⟨rfl, rfl, hm⟩
  · rfl
  · -- the carry
    rw [hm, zpow_sub₀ (by norm_num)]
    norm_num
    ring

/-! ## Signs and magnitudes -/

section OfMagnitude

variable {m : ℕ} (negative : Bool)

theorem toNat_ofMagnitude (h : m < 0x8000000000000000) :
    (ofMagnitude negative m).bits.toNat = m + if negative then 0x8000000000000000 else 0 := by
  unfold ofMagnitude
  rw [UInt64.toNat_ofNat']
  cases negative
  · simp only [Bool.false_eq_true, if_false]
    omega
  · simp only [if_true]
    omega

theorem magnitude_ofMagnitude (h : m < 0x8000000000000000) :
    (ofMagnitude negative m).magnitude = m := by
  unfold magnitude
  rw [toNat_ofMagnitude negative h]
  split <;> omega

theorem isNegative_ofMagnitude (h : m < 0x8000000000000000) :
    (ofMagnitude negative m).isNegative = negative := by
  unfold isNegative
  rw [toNat_ofMagnitude negative h]
  cases negative
  · simp only [Bool.false_eq_true, if_false, decide_eq_false_iff_not]
    omega
  · simp only [if_true, decide_eq_true_eq]
    omega

end OfMagnitude

theorem magnitude_lt (x : Binary64) : x.magnitude < 0x8000000000000000 := by
  unfold magnitude
  omega

/-- Sign and magnitude make up a double. -/
theorem eq_of_parts (hm : x.magnitude = y.magnitude) (hs : x.isNegative = y.isNegative) : x = y := by
  obtain ⟨a⟩ := x
  obtain ⟨b⟩ := y
  have ha := a.toNat_lt
  have hb := b.toNat_lt
  unfold magnitude isNegative at *
  simp only [decide_eq_decide] at hm hs
  congr 1
  apply UInt64.toNat_inj.1
  omega

theorem not_isNaN_of_isFinite (h : x.isFinite = true) : x.isNaN = false := by
  have := magnitude_lt_of_isFinite h
  unfold isNaN
  rw [decide_eq_false_iff_not]
  omega

theorem not_isInfinite_of_isFinite (h : x.isFinite = true) : x.isInfinite = false := by
  have := magnitude_lt_of_isFinite h
  unfold isInfinite
  rw [beq_eq_false_iff_ne]
  omega

theorem isZero_iff (x : Binary64) : x.isZero = true ↔ x.significand = 0 := by
  unfold isZero
  rw [beq_iff_eq, significand_eq_zero_iff]

/-! ## The operations -/

section Operations

variable {den : ℕ} (negative : Bool) (num : ℕ)

theorem infinityBits_lt : infinityBits < 0x8000000000000000 := by decide

theorem magnitude_ofQuotient (hd : 0 < den) :
    (ofQuotient negative num den).magnitude = roundRat ((num : ℚ) / den) := by
  have hle := roundRat_le ((num : ℚ) / den)
  have hlt := infinityBits_lt
  unfold ofQuotient
  rw [roundQuotient_eq_roundRat num hd, magnitude_ofMagnitude _ (by omega)]

theorem isNegative_ofQuotient (hd : 0 < den) :
    (ofQuotient negative num den).isNegative = negative := by
  have hle := roundRat_le ((num : ℚ) / den)
  have hlt := infinityBits_lt
  unfold ofQuotient
  rw [roundQuotient_eq_roundRat num hd]
  exact isNegative_ofMagnitude _ (by omega)

theorem magnitude_ofNat (n : ℕ) : (ofNat n).magnitude = roundRat n := by
  have := magnitude_ofQuotient false n Nat.one_pos
  rw [Nat.cast_one, div_one] at this
  exact this

theorem isNegative_ofNat (n : ℕ) : (ofNat n).isNegative = false :=
  isNegative_ofQuotient false n Nat.one_pos

/-- A product is the exact one, rounded. -/
theorem mul_parts (hx : x.isFinite = true) (hy : y.isFinite = true) :
    (x.mul y).magnitude = roundRat (x.size * y.size) ∧
      (x.mul y).isNegative = (x.isNegative != y.isNegative) := by
  have hexact : ((x.significand * y.significand * Nat.pow 2 (x.scale + y.scale).toNat : ℕ) : ℚ) /
      (Nat.pow 2 (-(x.scale + y.scale)).toNat : ℕ) = x.size * y.size := by
    have hz := zpow_eq_div 2 (x.scale + y.scale)
    simp only [Nat.pow_eq]
    push_cast
    rw [mul_div_assoc, ← hz, zpow_add₀ (by norm_num)]
    unfold size
    ring
  have hpos : 0 < Nat.pow 2 (-(x.scale + y.scale)).toNat := Nat.pow_pos (by norm_num)
  unfold mul
  simp only [not_isNaN_of_isFinite hx, not_isNaN_of_isFinite hy, not_isInfinite_of_isFinite hx,
    not_isInfinite_of_isFinite hy, Bool.or_self, Bool.false_eq_true, if_false]
  rw [magnitude_ofQuotient _ _ hpos, hexact]
  exact ⟨rfl, isNegative_ofQuotient _ _ hpos⟩

/-- A quotient is the exact one, rounded. -/
theorem div_parts (hx : x.isFinite = true) (hy : y.isFinite = true) (hy0 : 0 < y.significand) :
    (x.div y).magnitude = roundRat (x.size / y.size) ∧
      (x.div y).isNegative = (x.isNegative != y.isNegative) := by
  have hzero : y.isZero = false := by
    rw [Bool.eq_false_iff, ne_eq, isZero_iff]
    omega
  have hexact : ((x.significand * Nat.pow 2 (x.scale - y.scale).toNat : ℕ) : ℚ) /
      (y.significand * Nat.pow 2 (-(x.scale - y.scale)).toNat : ℕ) = x.size / y.size := by
    have hz := zpow_eq_div 2 (x.scale - y.scale)
    simp only [Nat.pow_eq]
    push_cast
    rw [mul_div_mul_comm, ← hz, zpow_sub₀ (by norm_num)]
    unfold size
    rw [mul_div_mul_comm]
  have hpos : 0 < y.significand * Nat.pow 2 (-(x.scale - y.scale)).toNat :=
    Nat.mul_pos hy0 (Nat.pow_pos (by norm_num))
  unfold div
  simp only [not_isNaN_of_isFinite hx, not_isNaN_of_isFinite hy, not_isInfinite_of_isFinite hx,
    not_isInfinite_of_isFinite hy, hzero, Bool.or_self, Bool.false_eq_true, if_false]
  rw [magnitude_ofQuotient _ _ hpos, hexact]
  exact ⟨rfl, isNegative_ofQuotient _ _ hpos⟩

end Operations

/-! ## Exact numbers -/

/-- A number with few enough significant bits is a double itself. -/
theorem size_of_exact {m j : ℕ} (hm : 0 < m) (hfits : m < 2 ^ 53) (hj : j ≤ 900)
    (hx : x.magnitude = roundRat ((m * 2 ^ j : ℕ) : ℚ)) : x.size = (m * 2 ^ j : ℕ) := by
  have hn : 0 < m * 2 ^ j := Nat.mul_pos hm (Nat.pow_pos (by norm_num))
  have hq : (0 : ℚ) < (m * 2 ^ j : ℕ) := by exact_mod_cast hn
  obtain ⟨k, hk, hr⟩ := roundQuotient_spec hn Nat.one_pos
  have hquot := roundQuotient_eq_roundRat (m * 2 ^ j) Nat.one_pos
  simp only [Nat.cast_one, div_one] at hk hr hquot
  obtain ⟨hmin, hhigh, hlow⟩ := significand_bounds hq hk
  -- the unit divides the number, so there is nothing to round
  have hunit : unitOf ((m * 2 ^ j : ℕ) : ℚ) ≤ j := by
    have hlog : Int.log 2 ((m * 2 ^ j : ℕ) : ℚ) < j + 53 := by
      rw [← Int.lt_zpow_iff_log_lt (by norm_num) hq]
      have : m * 2 ^ j < 2 ^ (j + 53) := by
        rw [pow_add, mul_comm (2 ^ j)]
        exact Nat.mul_lt_mul_of_pos_right hfits (Nat.pow_pos (by norm_num))
      exact_mod_cast this
    unfold unitOf
    omega
  generalize unitOf ((m * 2 ^ j : ℕ) : ℚ) = e at *
  have hwhole : ((m * 2 ^ j : ℕ) : ℚ) / 2 ^ e = (m * 2 ^ (j - e).toNat : ℕ) := by
    obtain ⟨n, hn⟩ := Int.eq_ofNat_of_zero_le (Int.sub_nonneg.2 hunit)
    obtain rfl : e = (j : ℤ) - n := by omega
    rw [show ((j : ℤ) - (j - n)).toNat = n by omega, zpow_sub₀ (by norm_num)]
    push_cast
    rw [zpow_natCast, zpow_natCast]
    field_simp
  have hkeq : k = m * 2 ^ (j - e).toNat := by
    rw [hwhole] at hk
    exact hk.unique (IsNearest.natCast _)
  have hplace : x.magnitude = place e k := by
    rw [hx, ← hquot, hr]
    apply min_eq_left
    unfold place infinityBits
    omega
  rw [size_of_place hmin hhigh hlow hplace, hkeq, ← hwhole, div_mul_cancel₀ _ (two_zpow_pos e).ne']

theorem isFinite_of_magnitude (h : x.magnitude < infinityBits) : x.isFinite = true := by
  unfold isFinite
  exact decide_eq_true h

/-- Whole numbers of up to 53 bits are doubles. -/
theorem size_ofNat {n : ℕ} (h : n ≤ 2 ^ 53) : (ofNat n).size = n := by
  have hmagnitude := magnitude_ofNat n
  obtain rfl | hn := Nat.eq_zero_or_pos n
  · rw [Nat.cast_zero, roundRat_zero, ← significand_eq_zero_iff] at hmagnitude
    unfold size
    rw [hmagnitude]
    norm_num
  obtain hlt | rfl := h.lt_or_eq
  · have := size_of_exact (j := 0) hn hlt (by norm_num) (by rw [hmagnitude, pow_zero, mul_one])
    rw [this, pow_zero, mul_one]
  · have := size_of_exact (m := 1) (j := 53) one_pos (by norm_num) (by norm_num)
      (by rw [hmagnitude, one_mul])
    rw [this, one_mul]

/-- The powers of ten up to the twenty-second are doubles. -/
theorem size_powerOfTen {k : ℕ} (h : k ≤ 22) : (powerOfTen k).size = 10 ^ k := by
  have hten : 5 ^ k * 2 ^ k = 10 ^ k := by
    rw [← mul_pow]
    norm_num
  have hfive : 5 ^ k < 2 ^ 53 :=
    lt_of_le_of_lt (Nat.pow_le_pow_right (by norm_num) h) (by norm_num)
  have hmagnitude : (powerOfTen k).magnitude = roundRat ((5 ^ k * 2 ^ k : ℕ) : ℚ) := by
    rw [hten]
    exact magnitude_ofNat _
  have := size_of_exact (Nat.pow_pos (by norm_num)) hfive (by omega) hmagnitude
  rw [this, hten]
  push_cast
  rfl

end Telemetry.Number.Binary64
