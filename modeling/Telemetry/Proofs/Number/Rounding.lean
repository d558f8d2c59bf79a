/-
Rounding seen from outside. The double nearest to a quotient depends on the rational number alone
and grows with it, so bounds on the exact numbers carry over to the doubles.
-/
import Mathlib.Data.Int.Log
import Mathlib.Data.Rat.Floor
import Mathlib.Algebra.Order.Field.Power
import Mathlib.Tactic.FieldSimp
import Mathlib.Tactic.Linarith
import Mathlib.Tactic.Positivity
import Mathlib.Tactic.Ring
import Mathlib.Tactic.NormNum
import Mathlib.Tactic.GCongr
import Telemetry.Number.Binary64

namespace Telemetry.Number

/-! ## The nearest whole number -/

/-- `k` is the whole number nearest to `q`, the even one of two. -/
def IsNearest (q : ℚ) (k : ℕ) : Prop :=
  if k % 2 = 0 then (k : ℚ) - 1 / 2 ≤ q ∧ q ≤ k + 1 / 2 else (k : ℚ) - 1 / 2 < q ∧ q < k + 1 / 2

namespace IsNearest

variable {p q : ℚ} {j k : ℕ}

theorem lower (h : IsNearest q k) : (k : ℚ) - 1 / 2 ≤ q := by
  unfold IsNearest at h
  split at h
  · exact h.1
  · exact h.1.le

theorem upper (h : IsNearest q k) : q ≤ k + 1 / 2 := by
  unfold IsNearest at h
  split at h
  · exact h.2
  · exact h.2.le

/-- A number strictly between the two midpoints has the same nearest whole number at any parity. -/
theorem of_between (h1 : (k : ℚ) - 1 / 2 < q) (h2 : q < k + 1 / 2) : IsNearest q k := by
  unfold IsNearest
  split
  · exact ⟨h1.le, h2.le⟩
  · exact ⟨h1, h2⟩

theorem mono (hp : IsNearest p j) (hq : IsNearest q k) (h : p ≤ q) : j ≤ k := by
  by_contra hlt
  have hjk : (k : ℚ) + 1 ≤ j := by exact_mod_cast Nat.lt_of_not_le hlt
  have hl := hp.lower
  have hu := hq.upper
  -- both numbers are the midpoint of `k` and `k + 1`, which only one of the two rounds to
  have hj : (j : ℚ) = k + 1 := by linarith
  have hj' : j = k + 1 := by exact_mod_cast hj
  unfold IsNearest at hp hq
  split at hp <;> split at hq
  · omega
  · linarith [hq.2]
  · linarith [hp.1]
  · linarith [hp.1]

theorem unique (hj : IsNearest q j) (hk : IsNearest q k) : j = k :=
  le_antisymm (hj.mono hk le_rfl) (hk.mono hj le_rfl)

theorem le_of_lt {b : ℕ} (h : IsNearest q k) (hq : q < b) : k ≤ b := by
  by_contra hlt
  have hb : (b : ℚ) + 1 ≤ k := by exact_mod_cast Nat.lt_of_not_le hlt
  linarith [h.lower]

theorem le_of_le {b : ℕ} (h : IsNearest q k) (hq : (b : ℚ) ≤ q) : b ≤ k := by
  by_contra hlt
  have hb : (k : ℚ) + 1 ≤ b := by exact_mod_cast Nat.lt_of_not_le hlt
  linarith [h.upper]

theorem natCast (n : ℕ) : IsNearest n n := of_between (by linarith) (by linarith)

end IsNearest

theorem Binary64.isNearest_nearest (num : ℕ) {den : ℕ} (hd : 0 < den) :
    IsNearest ((num : ℚ) / den) (nearest num den) := by
  have hq : (0 : ℚ) < den := by exact_mod_cast hd
  have hr : num % den < den := Nat.mod_lt _ hd
  have hsum : (num : ℚ) = den * (num / den : ℕ) + (num % den : ℕ) := by
    exact_mod_cast (Nat.div_add_mod num den).symm
  have hsplit : (num : ℚ) / den = (num / den : ℕ) + ((num % den : ℕ) : ℚ) / den := by
    rw [hsum]
    field_simp
  have h0 : (0 : ℚ) ≤ ((num % den : ℕ) : ℚ) / den := by positivity
  have h1 : ((num % den : ℕ) : ℚ) / den < 1 := by
    rw [div_lt_one hq]
    exact_mod_cast hr
  rw [hsplit]
  unfold nearest
  simp only
  generalize num / den = a at *
  generalize hrem : num % den = r at *
  by_cases hlow : 2 * r < den
  · -- below the midpoint
    have : (r : ℚ) / den < 1 / 2 := by
      rw [div_lt_div_iff₀ hq (by norm_num)]
      exact_mod_cast (by omega : r * 2 < 1 * den)
    rw [if_pos (Or.inl hlow)]
    exact IsNearest.of_between (by linarith) (by linarith)
  by_cases hmid : 2 * r = den
  · -- the midpoint itself goes to the even neighbour
    have hhalf : (r : ℚ) / den = 1 / 2 := by
      rw [div_eq_div_iff hq.ne' (by norm_num)]
      exact_mod_cast (by omega : r * 2 = 1 * den)
    rw [hhalf]
    by_cases heven : a % 2 = 0
    · rw [if_pos (Or.inr ⟨hmid, heven⟩)]
      unfold IsNearest
      rw [if_pos heven]
      constructor <;> linarith
    · rw [if_neg (by rintro (h | ⟨-, h⟩) <;> omega)]
      unfold IsNearest
      rw [if_pos (by omega)]
      push_cast
      constructor <;> linarith
  · -- above the midpoint
    have : 1 / 2 < (r : ℚ) / den := by
      rw [div_lt_div_iff₀ (by norm_num) hq]
      exact_mod_cast (by omega : 1 * den < r * 2)
    rw [if_neg (by rintro (h | ⟨h, -⟩) <;> omega)]
    apply IsNearest.of_between
    · push_cast; linarith
    · push_cast; linarith

/-! ## The unit in the last place -/

/-- An integer power as a ratio of whole powers, the form in which scaled numbers are held. -/
theorem zpow_eq_div (b : ℚ) (e : ℤ) : b ^ e = b ^ e.toNat / b ^ (-e).toNat := by
  obtain he | he := Int.le_total 0 e
  · obtain ⟨n, rfl⟩ := Int.eq_ofNat_of_zero_le he
    simp
  · obtain ⟨n, hn⟩ := Int.eq_ofNat_of_zero_le (Int.neg_nonneg.2 he)
    obtain rfl : e = -(n : ℤ) := by omega
    simp

theorem two_zpow_pos (e : ℤ) : (0 : ℚ) < 2 ^ e := zpow_pos (by norm_num) e

/-- The exponent of the unit in the last place of the double nearest to `q`. -/
def unitOf (q : ℚ) : ℤ := max (Int.log 2 q - 52) (-1074)

theorem scaled_lt {q : ℚ} (hq : 0 < q) : q / 2 ^ unitOf q < 2 ^ 53 := by
  have hlog : Int.log 2 q < unitOf q + 53 := by
    unfold unitOf
    omega
  have hlt := (Int.lt_zpow_iff_log_lt (by norm_num) hq).2 hlog
  rw [Nat.cast_ofNat, zpow_add₀ (by norm_num), mul_comm] at hlt
  rw [div_lt_iff₀ (two_zpow_pos _)]
  exact_mod_cast hlt

theorem le_scaled {q : ℚ} (hq : 0 < q) (h : -1074 < unitOf q) : 2 ^ 52 ≤ q / 2 ^ unitOf q := by
  have hlog : unitOf q + 52 ≤ Int.log 2 q := by
    unfold unitOf at *
    omega
  have hle := (Int.zpow_le_iff_le_log (by norm_num) hq).2 hlog
  rw [Nat.cast_ofNat, zpow_add₀ (by norm_num), mul_comm] at hle
  rw [le_div_iff₀ (two_zpow_pos _)]
  exact_mod_cast hle

theorem unitOf_mono {p q : ℚ} (hp : 0 < p) (h : p ≤ q) : unitOf p ≤ unitOf q := by
  have := Int.log_mono_right (b := 2) hp h
  unfold unitOf
  omega

/-- The unit of a number is known from two powers of two around it. -/
theorem unitOf_eq {q : ℚ} {e : ℤ} (he : -1074 ≤ e) (hq : 0 < q) (h1 : q < 2 ^ (e + 53))
    (h2 : e = -1074 ∨ 2 ^ (e + 52) ≤ q) : unitOf q = e := by
  have high : Int.log 2 q < e + 53 := by
    rw [← Int.lt_zpow_iff_log_lt (by norm_num) hq, Nat.cast_ofNat]
    exact h1
  unfold unitOf
  rcases h2 with rfl | h2
  · omega
  · have low : e + 52 ≤ Int.log 2 q := by
      rw [← Int.zpow_le_iff_le_log (by norm_num) hq, Nat.cast_ofNat]
      exact h2
    omega

namespace Binary64

variable {num den : ℕ}

theorem shifted_ratio (num : ℕ) (e : ℤ) (hd : 0 < den) :
    0 < (shifted num den e).2 ∧
      ((shifted num den e).1 : ℚ) / (shifted num den e).2 = (num : ℚ) / den / 2 ^ e := by
  constructor
  · exact Nat.mul_pos hd (Nat.pow_pos (by norm_num))
  · simp only [shifted, Nat.pow_eq, Nat.cast_mul, Nat.cast_pow, Nat.cast_ofNat]
    rw [zpow_eq_div 2 e]
    field_simp

theorem unitExponent_eq (hn : 0 < num) (hd : 0 < den) :
    unitExponent num den = unitOf ((num : ℚ) / den) := by
  have hdq : (0 : ℚ) < den := by exact_mod_cast hd
  have hq : (0 : ℚ) < (num : ℚ) / den := by positivity
  have num_low : (2 : ℚ) ^ num.log2 ≤ num := by exact_mod_cast Nat.log2_self_le hn.ne'
  have num_high : (num : ℚ) < 2 ^ (num.log2 + 1) := by exact_mod_cast Nat.lt_log2_self
  have den_low : (2 : ℚ) ^ den.log2 ≤ den := by exact_mod_cast Nat.log2_self_le hd.ne'
  have den_high : (den : ℚ) < 2 ^ (den.log2 + 1) := by exact_mod_cast Nat.lt_log2_self
  -- the logarithm of the quotient is the difference of the two logarithms, or one less
  have log_low : (num.log2 : ℤ) - den.log2 - 1 ≤ Int.log 2 ((num : ℚ) / den) := by
    rw [← Int.zpow_le_iff_le_log (by norm_num) hq, le_div_iff₀ hdq]
    calc ((2 : ℕ) : ℚ) ^ ((num.log2 : ℤ) - den.log2 - 1) * den
        ≤ ((2 : ℕ) : ℚ) ^ ((num.log2 : ℤ) - den.log2 - 1) * 2 ^ (den.log2 + 1) := by gcongr
      _ = 2 ^ num.log2 := by
        rw [← zpow_natCast, ← zpow_natCast, Nat.cast_ofNat, ← zpow_add₀ (by norm_num)]
        congr 1
        push_cast
        ring
      _ ≤ num := num_low
  have log_high : Int.log 2 ((num : ℚ) / den) < (num.log2 : ℤ) - den.log2 + 1 := by
    rw [← Int.lt_zpow_iff_log_lt (by norm_num) hq, div_lt_iff₀ hdq]
    calc (num : ℚ) < 2 ^ (num.log2 + 1) := num_high
      _ = ((2 : ℕ) : ℚ) ^ ((num.log2 : ℤ) - den.log2 + 1) * 2 ^ den.log2 := by
        rw [← zpow_natCast, ← zpow_natCast, Nat.cast_ofNat, ← zpow_add₀ (by norm_num)]
        congr 1
        push_cast
        ring
      _ ≤ ((2 : ℕ) : ℚ) ^ ((num.log2 : ℤ) - den.log2 + 1) * den := by gcongr
  unfold unitExponent unitOf
  simp only
  generalize hg : (num.log2 : ℤ) - den.log2 - 52 = g at *
  obtain ⟨hpos, hratio⟩ := shifted_ratio num g hd
  generalize shifted num den g = s at *
  have hsq : (0 : ℚ) < s.2 := by exact_mod_cast hpos
  -- the test on the shifted quotient tells which of the two it is
  have htest : s.1 / s.2 < 0x10000000000000 ↔ Int.log 2 ((num : ℚ) / den) < g + 52 := by
    rw [Nat.div_lt_iff_lt_mul hpos, ← Int.lt_zpow_iff_log_lt (by norm_num) hq]
    calc s.1 < 0x10000000000000 * s.2 ↔ (s.1 : ℚ) < 0x10000000000000 * s.2 := by
          exact_mod_cast Iff.rfl
      _ ↔ (s.1 : ℚ) / s.2 < 0x10000000000000 := (div_lt_iff₀ hsq).symm
      _ ↔ (num : ℚ) / den < 0x10000000000000 * 2 ^ g := by
        rw [hratio, div_lt_iff₀ (two_zpow_pos g)]
      _ ↔ (num : ℚ) / den < ((2 : ℕ) : ℚ) ^ (g + 52) := by
        rw [Nat.cast_ofNat, zpow_add₀ (by norm_num), mul_comm]
        norm_num
  congr 1
  by_cases hlt : s.1 / s.2 < 0x10000000000000
  · have := htest.1 hlt
    rw [if_pos hlt]
    omega
  · have := mt htest.2 hlt
    rw [if_neg hlt]
    omega

/-! ## Rounding a quotient -/

/-- The magnitude bits of a significand `k` in units of `2 ^ e`, before the cut at infinity. -/
def place (e : ℤ) (k : ℕ) : ℕ := (e + 1074).toNat * 0x10000000000000 + k

theorem roundQuotient_spec (hn : 0 < num) (hd : 0 < den) :
    ∃ k, IsNearest ((num : ℚ) / den / 2 ^ unitOf ((num : ℚ) / den)) k ∧
      roundQuotient num den = min (place (unitOf ((num : ℚ) / den)) k) infinityBits := by
  have hu := unitExponent_eq hn hd
  unfold roundQuotient place
  rw [if_neg hn.ne', hu]
  simp only
  obtain ⟨hpos, hratio⟩ := shifted_ratio num (unitOf ((num : ℚ) / den)) hd
  refine ⟨_, ?_, rfl⟩
  rw [← hratio]
  exact isNearest_nearest _ hpos

/-- The significand that a positive number rounds to fits its 53 bits, a carry apart, and fills them
unless the number is below the smallest normal one. -/
theorem significand_bounds {q : ℚ} {k : ℕ} (hq : 0 < q) (h : IsNearest (q / 2 ^ unitOf q) k) :
    -1074 ≤ unitOf q ∧ k ≤ 2 ^ 53 ∧ (-1074 < unitOf q → 2 ^ 52 ≤ k) := by
  refine ⟨le_max_right _ _, ?_, ?_⟩
  · apply h.le_of_lt
    exact_mod_cast scaled_lt hq
  · intro hnormal
    apply h.le_of_le
    exact_mod_cast le_scaled hq hnormal

/-- The larger number does not round to the smaller double. -/
theorem roundQuotient_mono {num' den' : ℕ} (hd : 0 < den) (hd' : 0 < den')
    (h : (num : ℚ) / den ≤ num' / den') : roundQuotient num den ≤ roundQuotient num' den' := by
  obtain rfl | hn := Nat.eq_zero_or_pos num
  · simp [roundQuotient]
  have hdq : (0 : ℚ) < den := by exact_mod_cast hd
  have hdq' : (0 : ℚ) < den' := by exact_mod_cast hd'
  have hq : (0 : ℚ) < (num : ℚ) / den := by positivity
  have hq' : (0 : ℚ) < (num' : ℚ) / den' := hq.trans_le h
  have hn' : 0 < num' := by
    rw [div_pos_iff_of_pos_right hdq'] at hq'
    exact_mod_cast hq'
  obtain ⟨k, hk, hr⟩ := roundQuotient_spec hn hd
  obtain ⟨k', hk', hr'⟩ := roundQuotient_spec hn' hd'
  obtain ⟨hmin, hhigh, -⟩ := significand_bounds hq hk
  obtain ⟨-, -, hlow'⟩ := significand_bounds hq' hk'
  have hunit := unitOf_mono hq h
  rw [hr, hr']
  apply min_le_min_right
  unfold place
  by_cases heq : unitOf ((num : ℚ) / den) = unitOf ((num' : ℚ) / den')
  · -- one grid: the nearest points keep the order
    rw [heq] at hk ⊢
    have hscaled : (num : ℚ) / den / 2 ^ unitOf ((num' : ℚ) / den') ≤
        (num' : ℚ) / den' / 2 ^ unitOf ((num' : ℚ) / den') :=
      div_le_div_of_nonneg_right h (two_zpow_pos _).le
    have := hk.mono hk' hscaled
    omega
  · -- a finer grid below: even a carry ends where the coarser one begins
    have := hlow' (by omega)
    omega

/-- Equal quotients round to one double, whatever their terms. -/
theorem roundQuotient_congr {num' den' : ℕ} (hd : 0 < den) (hd' : 0 < den')
    (h : (num : ℚ) / den = num' / den') : roundQuotient num den = roundQuotient num' den' :=
  le_antisymm (roundQuotient_mono hd hd' h.le) (roundQuotient_mono hd' hd h.ge)

end Binary64

end Telemetry.Number
