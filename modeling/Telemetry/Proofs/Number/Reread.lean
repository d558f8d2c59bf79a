/-
What a reader makes of the decimal that a double is written with. Digits and power of ten are
rounded to doubles before they are put together, so the last rounding may start from another number
than the decimal. The double survives exactly when that number lies in its rounding interval.
-/
import Telemetry.Proofs.Number.Range

namespace Telemetry.Number

open Binary64 (roundRat infinityBits)

/-! ## The factors -/

theorem magnitude_ofNat_mono {m n : ℕ} (h : m ≤ n) :
    (Binary64.ofNat m).magnitude ≤ (Binary64.ofNat n).magnitude := by
  rw [Binary64.magnitude_ofNat, Binary64.magnitude_ofNat]
  exact Binary64.roundRat_mono (Nat.cast_nonneg m) (by exact_mod_cast h)

theorem magnitude_powerOfTen_mono {j k : ℕ} (h : j ≤ k) :
    (Binary64.powerOfTen j).magnitude ≤ (Binary64.powerOfTen k).magnitude :=
  magnitude_ofNat_mono (Nat.pow_le_pow_right (by norm_num) h)

theorem size_ofNat_mono {m n : ℕ} (h : m ≤ n) : (Binary64.ofNat m).size ≤ (Binary64.ofNat n).size :=
  Binary64.size_mono (magnitude_ofNat_mono h)

theorem isFinite_ofNat {n : ℕ} (h : n ≤ 10 ^ 17) : (Binary64.ofNat n).isFinite = true := by
  apply Binary64.isFinite_of_magnitude
  have hlast : (Binary64.ofNat (10 ^ 17)).magnitude < infinityBits := by decide +kernel
  exact (magnitude_ofNat_mono h).trans_lt hlast

theorem isFinite_powerOfTen {k : ℕ} (h : k ≤ 308) : (Binary64.powerOfTen k).isFinite = true := by
  apply Binary64.isFinite_of_magnitude
  have hlast : (Binary64.powerOfTen 308).magnitude < infinityBits := by decide +kernel
  exact (magnitude_powerOfTen_mono h).trans_lt hlast

theorem one_le_size_powerOfTen (k : ℕ) : 1 ≤ (Binary64.powerOfTen k).size := by
  have hone : (Binary64.ofNat 1).size = 1 := by
    rw [Binary64.size_ofNat (by norm_num), Nat.cast_one]
  rw [← hone]
  exact size_ofNat_mono (Nat.one_le_pow k 10 (by norm_num))

namespace Binary64

variable {x y : Binary64}

theorem significand_pos_of_size (h : 0 < x.size) : 0 < x.significand := by
  by_contra hzero
  unfold size at h
  rw [show x.significand = 0 by omega, Nat.cast_zero, zero_mul] at h
  exact lt_irrefl 0 h

/-- Division by at least one stays in range. -/
theorem div_of_one_le (hx : x.isFinite = true) (hy : y.isFinite = true) (h : 1 ≤ y.size) :
    (x.div y).magnitude = roundRat (x.size / y.size) ∧
      (x.div y).isNegative = (x.isNegative != y.isNegative) ∧ (x.div y).isFinite = true := by
  have hy0 : 0 < y.significand := significand_pos_of_size (by linarith)
  obtain ⟨hmag, hsign⟩ := div_parts hx hy hy0
  refine ⟨hmag, hsign, isFinite_of_magnitude ?_⟩
  calc (x.div y).magnitude = roundRat (x.size / y.size) := hmag
    _ ≤ roundRat x.size := by
      apply roundRat_mono
      · exact div_nonneg (size_nonneg x) (size_nonneg y)
      · exact div_le_self (size_nonneg x) h
    _ = x.magnitude := roundRat_size hx
    _ < infinityBits := magnitude_lt_of_isFinite hx

end Binary64

/-! ## The reader's steps -/

namespace Decimal

/-- The double that a reader makes of a decimal, in its own steps. -/
def reread (d : Decimal) : Binary64 :=
  let f := Binary64.ofNat d.digits
  if 0 ≤ d.exponent then f.mul (Binary64.powerOfTen d.exponent.toNat)
  else if -308 ≤ d.exponent then f.div (Binary64.powerOfTen (-d.exponent).toNat)
  else (f.div (Binary64.powerOfTen 308)).div (Binary64.powerOfTen (-d.exponent - 308).toNat)

/-- The number that the last of these steps rounds. -/
def unrounded (d : Decimal) : ℚ :=
  let f := Binary64.ofNat d.digits
  if 0 ≤ d.exponent then f.size * (Binary64.powerOfTen d.exponent.toNat).size
  else if -308 ≤ d.exponent then f.size / (Binary64.powerOfTen (-d.exponent).toNat).size
  else (f.div (Binary64.powerOfTen 308)).size / (Binary64.powerOfTen (-d.exponent - 308).toNat).size

theorem unrounded_nonneg (d : Decimal) : 0 ≤ d.unrounded := by
  unfold unrounded
  simp only
  split
  · exact mul_nonneg (Binary64.size_nonneg _) (Binary64.size_nonneg _)
  · split <;> exact div_nonneg (Binary64.size_nonneg _) (Binary64.size_nonneg _)

namespace Written

variable {d : Decimal}

/-- From `10 ^ 291` on it is the digits that keep the product finite. -/
theorem isFinite_most : ∀ e < 309, 291 ≤ e → mostDigits e ≤ 10 ^ 17 ∧
    ((Binary64.ofNat (mostDigits e)).mul (Binary64.powerOfTen e)).isFinite = true := by
  decide +kernel

theorem isFinite_mul (h : d.Written) (hexp : 0 ≤ d.exponent) :
    ((Binary64.ofNat d.digits).mul (Binary64.powerOfTen d.exponent.toNat)).isFinite = true := by
  have hle := h.exponent_le
  obtain ⟨e, he⟩ : ∃ e, e = max d.exponent.toNat 291 := ⟨_, rfl⟩
  obtain ⟨hbound, hlast⟩ := isFinite_most e (by omega) (by omega)
  -- a smaller power is no worse than `10 ^ 291`, so one table tells of all of them
  have hdigits : d.digits ≤ mostDigits e := by
    by_cases hsmall : d.exponent.toNat < 291
    · rw [show e = 291 by omega]
      exact h.digits_le
    · rw [show e = d.exponent.toNat by omega]
      exact h.digits_most hexp
  have hf := isFinite_ofNat h.digits_le
  have hp := isFinite_powerOfTen (k := d.exponent.toNat) (by omega)
  have hpower := Binary64.size_mono (magnitude_powerOfTen_mono (by omega : d.exponent.toNat ≤ e))
  have hmono : (Binary64.ofNat d.digits).size * (Binary64.powerOfTen d.exponent.toNat).size ≤
      (Binary64.ofNat (mostDigits e)).size * (Binary64.powerOfTen e).size :=
    mul_le_mul (size_ofNat_mono hdigits) hpower (Binary64.size_nonneg _) (Binary64.size_nonneg _)
  have hnonneg : 0 ≤ (Binary64.ofNat d.digits).size * (Binary64.powerOfTen d.exponent.toNat).size :=
    mul_nonneg (Binary64.size_nonneg _) (Binary64.size_nonneg _)
  apply Binary64.isFinite_of_magnitude
  calc ((Binary64.ofNat d.digits).mul (Binary64.powerOfTen d.exponent.toNat)).magnitude
      = roundRat _ := (Binary64.mul_parts hf hp).1
    _ ≤ roundRat _ := Binary64.roundRat_mono hnonneg hmono
    _ = ((Binary64.ofNat (mostDigits e)).mul (Binary64.powerOfTen e)).magnitude :=
      (Binary64.mul_parts (isFinite_ofNat hbound) (isFinite_powerOfTen (by omega))).1.symm
    _ < infinityBits := Binary64.magnitude_lt_of_isFinite hlast

/-- A written decimal is read as a finite double without a sign, in one rounding of the number that
its rounded factors make. -/
theorem reread_spec (h : d.Written) :
    d.reread.isFinite = true ∧ d.reread.isNegative = false ∧
      d.reread.magnitude = roundRat d.unrounded := by
  have hf := isFinite_ofNat h.digits_le
  have hneg := Binary64.isNegative_ofNat d.digits
  have hle := h.exponent_le
  have hge := h.exponent_ge
  have hten (k : ℕ) : (Binary64.powerOfTen k).isNegative = false := Binary64.isNegative_ofNat _
  unfold reread unrounded
  simp only
  split
  · rename_i hexp
    have hp := isFinite_powerOfTen (k := d.exponent.toNat) (by omega)
    obtain ⟨hmag, hsign⟩ := Binary64.mul_parts hf hp
    refine ⟨h.isFinite_mul hexp, ?_, hmag⟩
    rw [hsign, hneg, hten]
    rfl
  · split
    · have hp := isFinite_powerOfTen (k := (-d.exponent).toNat) (by omega)
      obtain ⟨hmag, hsign, hfin⟩ := Binary64.div_of_one_le hf hp (one_le_size_powerOfTen _)
      refine ⟨hfin, ?_, hmag⟩
      rw [hsign, hneg, hten]
      rfl
    · have hp := isFinite_powerOfTen (k := 308) le_rfl
      obtain ⟨-, hsign, hfin⟩ := Binary64.div_of_one_le hf hp (one_le_size_powerOfTen _)
      have hp' := isFinite_powerOfTen (k := (-d.exponent - 308).toNat) (by omega)
      obtain ⟨hmag', hsign', hfin'⟩ := Binary64.div_of_one_le hfin hp' (one_le_size_powerOfTen _)
      refine ⟨hfin', ?_, hmag'⟩
      rw [hsign', hsign, hneg, hten, hten]
      rfl

/-- The steps of the reader end with that double: no decimal of a finite double is out of range. -/
theorem scaleByTen_eq (h : d.Written) :
    scaleByTen (Binary64.ofNat d.digits) d.exponent = some d.reread := by
  have hle := h.exponent_le
  have hge := h.exponent_ge
  obtain ⟨hfin, -, -⟩ := h.reread_spec
  have hinf := Binary64.not_isInfinite_of_isFinite hfin
  unfold reread at hinf ⊢
  simp only at hinf ⊢
  by_cases hexp : 0 ≤ d.exponent
  · rw [if_pos hexp] at hinf ⊢
    rw [scaleByTen, if_pos (by unfold largestTenPower; omega), if_pos hexp]
    simp only [hinf, Bool.false_eq_true, if_false]
  · rw [if_neg hexp]
    by_cases hnear : -308 ≤ d.exponent
    · rw [if_pos hnear, scaleByTen, if_pos (by unfold largestTenPower; omega), if_neg hexp]
    · -- far below one the reader divides by the largest power first
      have hzero : ¬(Binary64.ofNat d.digits).isZero = true := by
        have hone : 1 ≤ d.digits := h.digits_pos (by omega)
        have hsize := size_ofNat_mono hone
        rw [Binary64.size_ofNat (by norm_num), Nat.cast_one] at hsize
        have := Binary64.significand_pos_of_size (x := Binary64.ofNat d.digits) (by linarith)
        rw [Binary64.isZero_iff]
        omega
      rw [if_neg hnear, scaleByTen, if_neg (by unfold largestTenPower; omega), if_neg hzero,
        if_neg (by omega), scaleByTen, if_pos (by unfold largestTenPower; omega),
        if_neg (by unfold largestTenPower; omega)]
      unfold largestTenPower
      congr 3
      omega

end Written

end Decimal

/-! ## What comes back -/

theorem Numeral.signed_parts {y : Binary64} (negative : Bool) (h : y.isNegative = false) :
    (signed negative y).magnitude = y.magnitude ∧ (signed negative y).isNegative = negative := by
  cases negative with
  | false => exact ⟨rfl, h⟩
  | true =>
    unfold signed Binary64.neg
    rw [if_pos rfl, h]
    exact ⟨Binary64.magnitude_ofMagnitude _ y.magnitude_lt,
      Binary64.isNegative_ofMagnitude _ y.magnitude_lt⟩

namespace Binary64

variable {x : Binary64}

/-- The double that is read from the text of a double. -/
def returned (x : Binary64) : Binary64 :=
  Numeral.signed x.isNegative (shortest .toEven x).asWritten.reread

/-- The text of a finite double is read as that double. -/
theorem double?_numeral (hx : x.isFinite = true) :
    ((shortest .toEven x).numeral x.isNegative).double? = some x.returned := by
  have hwritten := written_shortest hx
  have hread := hwritten.asWritten
  have hform := Decimal.written_numeral x.isNegative (shortest .toEven x)
  rw [Numeral.double?_eq, hform, hread.scaleByTen_eq]
  · unfold returned
    rw [Option.map_some]
    congr 1
    unfold Decimal.numeral Decimal.inPlace Decimal.scaled
    simp only
    split
    · split
      · rfl
      · split <;> rfl
    · rfl
  · rw [hform]
    have := hread.digits_le
    omega
  · intro p hp
    have hlead := hwritten.leading_le
    unfold Decimal.numeral Decimal.inPlace Decimal.scaled at hp
    simp only at hp
    split at hp
    · split at hp
      · cases hp
      · split at hp <;> cases hp
    · cases hp
      rw [digitsValue_digitRow]
      exact hlead

theorem returned_parts (hx : x.isFinite = true) :
    x.returned.isFinite = true ∧ x.returned.isNegative = x.isNegative ∧
      x.returned.magnitude = roundRat (shortest .toEven x).asWritten.unrounded := by
  obtain ⟨hfin, hneg, hmag⟩ := (written_shortest hx).asWritten.reread_spec
  obtain ⟨hm, hs⟩ := Numeral.signed_parts x.isNegative hneg
  refine ⟨isFinite_of_magnitude ?_, hs, hm.trans hmag⟩
  exact hm.trans_lt (magnitude_lt_of_isFinite hfin)

/-- A double survives its text exactly when the number that its rounded digits and its rounded power
of ten make lies in its rounding interval. -/
theorem returned_eq_iff (hx : x.isFinite = true) :
    x.returned = x ↔ (Interval.ofBinary64 x).Holds (shortest .toEven x).asWritten.unrounded := by
  obtain ⟨-, hsign, hmag⟩ := returned_parts hx
  rw [← roundRat_eq_iff hx (Decimal.unrounded_nonneg _), ← hmag]
  constructor
  · intro h
    rw [h]
  · intro h
    exact eq_of_parts h hsign

/-- Few digits and a small power of ten are doubles themselves, and then nothing is lost. -/
theorem returned_eq_of_short (hx : x.isFinite = true)
    (hdigits : (shortest .toEven x).asWritten.digits ≤ 2 ^ 53)
    (hexp : (shortest .toEven x).asWritten.exponent.natAbs ≤ 22) : x.returned = x := by
  rw [returned_eq_iff hx]
  have hholds := holds_shortest .toEven x
  rw [← Decimal.worth_asWritten] at hholds
  generalize (shortest .toEven x).asWritten = d at *
  have hexact : d.unrounded = d.worth := by
    unfold Decimal.unrounded Decimal.worth
    simp only
    rw [size_ofNat hdigits]
    split
    · rename_i hpos
      rw [size_powerOfTen (by omega), ← zpow_natCast, Int.toNat_of_nonneg hpos]
    · rename_i hneg
      rw [if_pos (by omega), size_powerOfTen (by omega), div_eq_mul_inv, ← zpow_natCast,
        Int.toNat_of_nonneg (by omega), zpow_neg, inv_inv]
  rw [hexact]
  exact hholds

end Binary64

end Telemetry.Number
