/-
What a double's rounding interval means: exactly the rational numbers in it are rounded to the
double, the ends included when they are.
-/
import Telemetry.Number.Shortest
import Telemetry.Proofs.Number.Rounding

namespace Telemetry.Number

namespace Binary64

variable {x : Binary64}

/-! ## The parts of a double -/

/-- The magnitude of a finite double. -/
def size (x : Binary64) : ℚ := x.significand * 2 ^ x.scale

theorem scale_ge (x : Binary64) : -1074 ≤ x.scale := by
  unfold scale
  omega

theorem significand_lt (x : Binary64) : x.significand < 2 ^ 53 := by
  unfold significand
  split <;> omega

theorem significand_ge (h : -1074 < x.scale) : 2 ^ 52 ≤ x.significand := by
  unfold scale at h
  unfold significand
  rw [if_neg (by omega)]
  omega

theorem magnitude_eq_place (x : Binary64) : x.magnitude = place x.scale x.significand := by
  unfold place scale significand exponentField
  split <;> omega

theorem magnitude_lt_of_isFinite (h : x.isFinite = true) : x.magnitude < infinityBits := by
  simpa [isFinite] using h

theorem scale_le (h : x.isFinite = true) : x.scale ≤ 971 := by
  have := magnitude_lt_of_isFinite h
  unfold infinityBits at this
  unfold scale exponentField
  omega

end Binary64

/-! ## The interval -/

namespace Interval

/-- Whether a rational number lies in the interval. -/
def Holds (i : Interval) (q : ℚ) : Prop :=
  if i.closed then (i.low : ℚ) / i.den ≤ q ∧ q ≤ (i.high : ℚ) / i.den
  else (i.low : ℚ) / i.den < q ∧ q < (i.high : ℚ) / i.den

/-- How far below a double its interval begins, in quarters of its unit. -/
def below (x : Binary64) : ℕ :=
  if x.significand = 0x10000000000000 ∧ 1 < x.exponentField then 1 else 2

theorem below_cases (x : Binary64) :
    (below x = 1 ∧ x.significand = 2 ^ 52) ∨ below x = 2 := by
  unfold below
  split
  · exact Or.inl ⟨rfl, by omega⟩
  · exact Or.inr rfl

theorem below_pos (x : Binary64) : 1 ≤ below x := by
  rcases below_cases x with ⟨h, -⟩ | h <;> omega

theorem below_le (x : Binary64) : below x ≤ 2 := by
  rcases below_cases x with ⟨h, -⟩ | h <;> omega

theorem den_pos (x : Binary64) : 0 < (ofBinary64 x).den := Nat.pow_pos (by norm_num)

theorem end_eq (x : Binary64) (n : ℕ) :
    ((n * Nat.pow 2 (x.scale - 2).toNat : ℕ) : ℚ) / (ofBinary64 x).den = n / 4 * 2 ^ x.scale := by
  have hsplit : (2 : ℚ) ^ (x.scale - 2) = 2 ^ x.scale / 4 := by
    rw [zpow_sub₀ (by norm_num)]
    norm_num
  have hdiv := zpow_eq_div (2 : ℚ) (x.scale - 2)
  simp only [ofBinary64, Nat.pow_eq, Nat.cast_mul, Nat.cast_pow, Nat.cast_ofNat]
  rw [mul_div_assoc, ← hdiv, hsplit]
  ring

theorem value_eq (x : Binary64) :
    ((ofBinary64 x).value : ℚ) / (ofBinary64 x).den = x.size := by
  have := end_eq x (4 * x.significand)
  unfold Binary64.size
  push_cast at this
  simp only [ofBinary64] at this ⊢
  push_cast
  rw [this]
  ring

/-- The interval in units of the last place. -/
theorem holds_iff (x : Binary64) (q : ℚ) :
    (ofBinary64 x).Holds q ↔
      if x.significand % 2 = 0 then
        ((4 * x.significand - below x : ℕ) : ℚ) / 4 ≤ q / 2 ^ x.scale ∧
          q / 2 ^ x.scale ≤ (x.significand : ℚ) + 1 / 2
      else
        ((4 * x.significand - below x : ℕ) : ℚ) / 4 < q / 2 ^ x.scale ∧
          q / 2 ^ x.scale < (x.significand : ℚ) + 1 / 2 := by
  have hp := two_zpow_pos x.scale
  have hlow : ((ofBinary64 x).low : ℚ) / (ofBinary64 x).den =
      ((4 * x.significand - below x : ℕ) : ℚ) / 4 * 2 ^ x.scale := end_eq x _
  have hhigh : ((ofBinary64 x).high : ℚ) / (ofBinary64 x).den =
      ((x.significand : ℚ) + 1 / 2) * 2 ^ x.scale := by
    rw [show ((ofBinary64 x).high : ℚ) / (ofBinary64 x).den =
      ((4 * x.significand + 2 : ℕ) : ℚ) / 4 * 2 ^ x.scale from end_eq x _]
    push_cast
    ring
  have hclosed : (ofBinary64 x).closed = true ↔ x.significand % 2 = 0 := by
    simp [ofBinary64]
  unfold Holds
  rw [hlow, hhigh, le_div_iff₀ hp, div_le_iff₀ hp, lt_div_iff₀ hp, div_lt_iff₀ hp]
  by_cases heven : x.significand % 2 = 0
  · rw [if_pos (hclosed.2 heven), if_pos heven]
  · rw [if_neg (mt hclosed.1 heven), if_neg heven]

theorem holds_of_between {x : Binary64} {q : ℚ}
    (h1 : ((4 * x.significand - below x : ℕ) : ℚ) / 4 < q / 2 ^ x.scale)
    (h2 : q / 2 ^ x.scale < (x.significand : ℚ) + 1 / 2) : (ofBinary64 x).Holds q := by
  rw [holds_iff]
  split
  · exact ⟨h1.le, h2.le⟩
  · exact ⟨h1, h2⟩

/-- A number whose nearest significand is the double's lies in the interval. -/
theorem holds_of_isNearest {x : Binary64} {q : ℚ}
    (h : IsNearest (q / 2 ^ x.scale) x.significand)
    (hlow : -1074 < x.scale → 2 ^ 52 ≤ q / 2 ^ x.scale) (hq : 0 ≤ q) : (ofBinary64 x).Holds q := by
  have hscaled : 0 ≤ q / 2 ^ x.scale := div_nonneg hq (two_zpow_pos _).le
  rw [holds_iff]
  unfold IsNearest at h
  generalize q / 2 ^ x.scale = r at *
  -- a power of two has a quarter of a unit below it, but the numbers there have a finer unit
  by_cases hpower : x.significand = 0x10000000000000 ∧ 1 < x.exponentField
  · have hscale : -1074 < x.scale := by
      unfold Binary64.scale
      omega
    have hr : (2 : ℚ) ^ 52 ≤ r := hlow hscale
    have hb : below x = 1 := if_pos hpower
    have heven : x.significand % 2 = 0 := by omega
    rw [if_pos heven] at h ⊢
    rw [hb, hpower.1]
    rw [hpower.1] at h
    constructor
    · norm_num
      linarith
    · exact h.2
  · have hb : below x = 2 := if_neg hpower
    rw [hb]
    obtain hzero | hm := Nat.eq_zero_or_pos x.significand
    · rw [hzero] at h ⊢
      norm_num at h ⊢
      exact ⟨hscaled, h.2⟩
    · have hcut : ((4 * x.significand - 2 : ℕ) : ℚ) / 4 = (x.significand : ℚ) - 1 / 2 := by
        rw [Nat.cast_sub (by omega)]
        push_cast
        ring
      rw [hcut]
      exact h

theorem low_le (x : Binary64) :
    (x.significand : ℚ) - 1 / 2 ≤ ((4 * x.significand - below x : ℕ) : ℚ) / 4 ∧
      (x.significand = 2 ^ 52 ∧ -1074 < x.scale →
        (2 : ℚ) ^ 52 - 1 / 4 ≤ ((4 * x.significand - below x : ℕ) : ℚ) / 4) := by
  have hle := below_le x
  constructor
  · have : (4 * x.significand : ℚ) ≤ (4 * x.significand - below x : ℕ) + 2 := by
      exact_mod_cast (by omega : 4 * x.significand ≤ 4 * x.significand - below x + 2)
    linarith
  · rintro ⟨hm, hscale⟩
    have hpower : x.significand = 0x10000000000000 ∧ 1 < x.exponentField := by
      unfold Binary64.scale at hscale
      omega
    rw [show below x = 1 from if_pos hpower, hm]
    norm_num

/-- The ends of the interval, whether they belong to it or not. -/
theorem Holds.ends {x : Binary64} {q : ℚ} (h : (ofBinary64 x).Holds q) :
    ((4 * x.significand - below x : ℕ) : ℚ) / 4 ≤ q / 2 ^ x.scale ∧
      q / 2 ^ x.scale ≤ (x.significand : ℚ) + 1 / 2 := by
  rw [holds_iff] at h
  split at h
  · exact h
  · exact ⟨h.1.le, h.2.le⟩

/-- A number of the interval has the double's own significand as its nearest one. -/
theorem Holds.isNearest {x : Binary64} {q : ℚ} (h : (ofBinary64 x).Holds q) :
    IsNearest (q / 2 ^ x.scale) x.significand := by
  have hlow := (low_le x).1
  rw [holds_iff] at h
  unfold IsNearest
  split at h
  · rw [if_pos ‹_›]
    exact ⟨hlow.trans h.1, h.2⟩
  · rw [if_neg ‹_›]
    exact ⟨hlow.trans_lt h.1, h.2⟩

end Interval

/-! ## Rounding to a given double -/

namespace Binary64

variable {x : Binary64} {num den : ℕ}

theorem place_inj {e e' : ℤ} {k k' : ℕ} (he : -1074 ≤ e) (he' : -1074 ≤ e') (hk : k ≤ 2 ^ 53)
    (hk' : k' < 2 ^ 53) (hlow : -1074 < e → 2 ^ 52 ≤ k) (hlow' : -1074 < e' → 2 ^ 52 ≤ k')
    (h : place e k = place e' k') :
    (e = e' ∧ k = k') ∨ (e = e' - 1 ∧ k = 2 ^ 53 ∧ k' = 2 ^ 52) := by
  unfold place at h
  rcases lt_trichotomy e e' with hlt | rfl | hgt
  · have := hlow' (by omega)
    right
    omega
  · left
    omega
  · have := hlow (by omega)
    omega

/-- On the grid of the next smaller exponent a quotient is twice as large. -/
theorem div_two_zpow_sub_one (q : ℚ) (e : ℤ) : q / 2 ^ (e - 1) = 2 * (q / 2 ^ e) := by
  rw [zpow_sub₀ (by norm_num)]
  field_simp

/-- A number whose nearest one on its own grid is the double's magnitude belongs to the interval. -/
theorem holds_of_place {q : ℚ} {k : ℕ} (hq : 0 < q) (hk : IsNearest (q / 2 ^ unitOf q) k)
    (h : place (unitOf q) k = place x.scale x.significand) : (Interval.ofBinary64 x).Holds q := by
  obtain ⟨hmin, hhigh, hlow⟩ := significand_bounds hq hk
  have scaled_low := le_scaled hq
  have scaled_high := scaled_lt hq
  rcases place_inj hmin (scale_ge x) hhigh (significand_lt x) hlow significand_ge h
    with ⟨he, rfl⟩ | ⟨he, rfl, hm⟩
  · rw [he] at hk scaled_low
    exact Interval.holds_of_isNearest hk scaled_low hq.le
  · -- the carry: `q` lies in the quarter of a unit below a power of two
    have hscale : -1074 < x.scale := by omega
    have hpower : Interval.below x = 1 := by
      apply if_pos
      unfold scale at hscale
      omega
    have hl := hk.lower
    rw [he, div_two_zpow_sub_one] at hl scaled_high
    rw [Interval.holds_iff, hm, hpower, if_pos (by norm_num)]
    norm_num at hl scaled_high ⊢
    constructor <;> linarith

/-- A number of the interval lies on the double's own grid, unless it is below the power of two that the
double is; there it is so near that rounding on the finer grid carries. -/
theorem isNearest_of_holds {q : ℚ} (hq : 0 < q) (h : (Interval.ofBinary64 x).Holds q) :
    (unitOf q = x.scale ∧ IsNearest (q / 2 ^ x.scale) x.significand) ∨
      (unitOf q = x.scale - 1 ∧ x.significand = 2 ^ 52 ∧ IsNearest (q / 2 ^ (x.scale - 1)) (2 ^ 53)) := by
  obtain ⟨hl, hh⟩ := h.ends
  obtain ⟨cut, cut_power⟩ := Interval.low_le x
  have hp := two_zpow_pos x.scale
  have hm : (x.significand : ℚ) + 1 ≤ 2 ^ 53 := by exact_mod_cast significand_lt x
  by_cases hgrid : x.scale = -1074 ∨ 2 ^ 52 ≤ q / 2 ^ x.scale
  · left
    refine ⟨unitOf_eq (scale_ge x) hq ?_ ?_, h.isNearest⟩
    · rw [zpow_add₀ (by norm_num), mul_comm, ← div_lt_iff₀ hp]
      norm_num at hm ⊢
      linarith
    · refine hgrid.imp_right fun hs => ?_
      rw [zpow_add₀ (by norm_num), mul_comm, ← le_div_iff₀ hp]
      exact_mod_cast hs
  · right
    push Not at hgrid
    obtain ⟨hs, hr⟩ := hgrid
    have hscale : -1074 < x.scale := by
      have := scale_ge x
      omega
    -- only below a power of two does the interval reach into the finer grid
    have hm52 : x.significand = 2 ^ 52 := by
      apply le_antisymm _ (significand_ge hscale)
      have : (x.significand : ℚ) < (2 ^ 52 : ℕ) + 1 := by
        push_cast
        linarith
      have : x.significand < 2 ^ 52 + 1 := by exact_mod_cast this
      omega
    have hquarter := cut_power ⟨hm52, hscale⟩
    have hhalf := two_zpow_pos (x.scale - 1)
    refine ⟨unitOf_eq (by omega) hq ?_ (Or.inr ?_), hm52, ?_⟩
    · rw [zpow_add₀ (by norm_num), mul_comm, ← div_lt_iff₀ hhalf, div_two_zpow_sub_one]
      norm_num at hr ⊢
      linarith
    · rw [zpow_add₀ (by norm_num), mul_comm, ← le_div_iff₀ hhalf, div_two_zpow_sub_one]
      norm_num at hquarter ⊢
      linarith
    · unfold IsNearest
      rw [if_pos (by norm_num), div_two_zpow_sub_one]
      push_cast
      norm_num at hquarter hr ⊢
      constructor <;> linarith

/-- Rounding gives a finite double exactly on its interval. -/
theorem roundQuotient_eq_iff (hx : x.isFinite = true) (hn : 0 < num) (hd : 0 < den) :
    roundQuotient num den = x.magnitude ↔ (Interval.ofBinary64 x).Holds ((num : ℚ) / den) := by
  have hfinite := magnitude_lt_of_isFinite hx
  have hq : (0 : ℚ) < (num : ℚ) / den := by
    have : (0 : ℚ) < num := by exact_mod_cast hn
    have : (0 : ℚ) < den := by exact_mod_cast hd
    positivity
  obtain ⟨k, hk, hr⟩ := roundQuotient_spec hn hd
  rw [hr]
  generalize (num : ℚ) / den = q at *
  constructor
  · intro h
    apply holds_of_place hq hk
    rw [← magnitude_eq_place]
    omega
  · intro h
    suffices hplace : place (unitOf q) k = place x.scale x.significand by
      rw [hplace, ← magnitude_eq_place]
      omega
    rcases isNearest_of_holds hq h with ⟨hunit, hnear⟩ | ⟨hunit, hm, hcarry⟩
    · rw [hunit] at hk ⊢
      rw [hk.unique hnear]
    · have hmin := (significand_bounds hq hk).1
      rw [hunit] at hk hmin ⊢
      rw [hk.unique hcarry, hm]
      unfold place
      omega

end Binary64

end Telemetry.Number
