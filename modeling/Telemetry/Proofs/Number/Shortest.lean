/-
The shortest decimal of a double rounds back to it. Its digits are found within seventeen places,
since a grid that fine has a point in every rounding interval.
-/
import Telemetry.Proofs.Number.Interval

namespace Telemetry.Number

theorem ten_zpow_pos (k : ℤ) : (0 : ℚ) < 10 ^ k := zpow_pos (by norm_num) k

/-! ## Decimal logarithms -/

theorem log10_bounds {n : ℕ} (h : 0 < n) : 10 ^ log10 n ≤ n ∧ n < 10 ^ (log10 n + 1) := by
  induction n using Nat.strong_induction_on with
  | _ n ih =>
    rw [log10]
    split
    · exact ⟨by omega, by omega⟩
    · obtain ⟨hlow, hhigh⟩ := ih (n / 10) (by omega) (by omega)
      rw [pow_succ 10 (log10 (n / 10)), pow_succ 10 (log10 (n / 10) + 1)]
      omega

/-- The first digit of `num / den` stands at the decimal exponent. -/
theorem decimalExponent_bounds {num den : ℕ} (hn : 0 < num) (hd : 0 < den) :
    (10 : ℚ) ^ decimalExponent num den ≤ (num : ℚ) / den ∧
      (num : ℚ) / den < 10 ^ (decimalExponent num den + 1) := by
  have hnq : (0 : ℚ) < num := by exact_mod_cast hn
  have hdq : (0 : ℚ) < den := by exact_mod_cast hd
  unfold decimalExponent
  split
  · rename_i hle
    obtain ⟨hlow, hhigh⟩ := log10_bounds (Nat.div_pos hle hd)
    generalize log10 (num / den) = l at *
    rw [Nat.le_div_iff_mul_le hd] at hlow
    rw [Nat.div_lt_iff_lt_mul hd] at hhigh
    rw [le_div_iff₀ hdq, div_lt_iff₀ hdq]
    constructor
    · exact_mod_cast hlow
    · exact_mod_cast hhigh
  · -- below one the logarithm is that of the reciprocal, rounded the other way
    rename_i hgt
    have hpos : 0 < (den - 1) / num := Nat.div_pos (by omega) hn
    obtain ⟨hlow, hhigh⟩ := log10_bounds hpos
    generalize log10 ((den - 1) / num) = l at *
    rw [Nat.le_div_iff_mul_le hn] at hlow
    rw [Nat.div_lt_iff_lt_mul hn] at hhigh
    have hlow' : ((10 ^ l * num : ℕ) : ℚ) < den := by exact_mod_cast (by omega : 10 ^ l * num < den)
    have hhigh' : (den : ℚ) ≤ (10 ^ (l + 1) * num : ℕ) := by
      exact_mod_cast (by omega : den ≤ 10 ^ (l + 1) * num)
    push_cast at hlow' hhigh'
    constructor
    · rw [show (-((l : ℤ) + 1)) = -((l + 1 : ℕ) : ℤ) by push_cast; ring, zpow_neg, zpow_natCast,
        inv_le_comm₀ (by positivity) (by positivity), inv_div, div_le_iff₀ hnq]
      exact hhigh'
    · rw [show (-((l : ℤ) + 1) + 1) = -(l : ℤ) by ring, zpow_neg, zpow_natCast,
        lt_inv_comm₀ (by positivity) (by positivity), inv_div, lt_div_iff₀ hnq]
      exact hlow'

namespace Interval

variable {i : Interval} {tie : Tie} {d : ℕ} {k : ℤ}

/-! ## The points of a grid -/

/-- The greatest point of the grid `10 ^ k` that is not above the value. -/
def floor (i : Interval) (k : ℤ) : ℕ :=
  i.value * Nat.pow 10 (-k).toNat / (i.den * Nat.pow 10 k.toNat)

theorem contains_iff (hi : 0 < i.den) (d : ℕ) (k : ℤ) :
    i.contains d k = true ↔ i.Holds (d * 10 ^ k) := by
  have hiq : (0 : ℚ) < i.den := by exact_mod_cast hi
  have hs : (0 : ℚ) < 10 ^ (-k).toNat := by positivity
  unfold contains gridPoint Holds
  rw [zpow_eq_div 10 k, ← mul_div_assoc, div_le_div_iff₀ hiq hs, div_le_div_iff₀ hs hiq,
    div_lt_div_iff₀ hiq hs, div_lt_div_iff₀ hs hiq]
  simp only [Nat.pow_eq]
  split
  · simp only [Bool.and_eq_true, decide_eq_true_eq]
    exact_mod_cast Iff.rfl
  · simp only [Bool.and_eq_true, decide_eq_true_eq]
    exact_mod_cast Iff.rfl

theorem floor_bounds (hi : 0 < i.den) (k : ℤ) :
    (i.floor k : ℚ) * 10 ^ k ≤ (i.value : ℚ) / i.den ∧
      (i.value : ℚ) / i.den < ((i.floor k : ℚ) + 1) * 10 ^ k := by
  have hiq : (0 : ℚ) < i.den := by exact_mod_cast hi
  have hs : (0 : ℚ) < 10 ^ (-k).toNat := by positivity
  have hpos : 0 < i.den * 10 ^ k.toNat := Nat.mul_pos hi (by positivity)
  have hlow : i.floor k * (i.den * 10 ^ k.toNat) ≤ i.value * 10 ^ (-k).toNat :=
    Nat.div_mul_le_self _ _
  have hhigh : i.value * 10 ^ (-k).toNat < (i.floor k + 1) * (i.den * 10 ^ k.toNat) := by
    rw [← Nat.div_lt_iff_lt_mul hpos]
    exact Nat.lt_succ_self _
  rw [zpow_eq_div 10 k, ← mul_div_assoc, ← mul_div_assoc, div_le_div_iff₀ hs hiq,
    div_lt_div_iff₀ hiq hs]
  constructor
  · rw [mul_assoc, mul_comm ((10 : ℚ) ^ k.toNat)]
    exact_mod_cast hlow
  · rw [mul_assoc, mul_comm ((10 : ℚ) ^ k.toNat)]
    exact_mod_cast hhigh

/-- A hit is a neighbour of the value on its grid, and lies in the interval. -/
theorem hit?_some (h : i.hit? tie k = some d) :
    i.contains d k = true ∧ (d = i.floor k ∨ d = i.floor k + 1) := by
  unfold hit? at h
  simp only at h
  rw [show i.value * Nat.pow 10 (-k).toNat / (i.den * Nat.pow 10 k.toNat) = i.floor k from rfl] at h
  have hchoice : tie.choose (i.floor k) = i.floor k ∨ tie.choose (i.floor k) = i.floor k + 1 := by
    unfold Tie.choose
    cases tie with
    | toEven => simp only; split <;> simp
    | up => simp
  split at h
  · simp at h
  · cases h
    exact ⟨‹_›, Or.inl rfl⟩
  · cases h
    exact ⟨‹_›, Or.inr rfl⟩
  · split at h
    · cases h
      exact ⟨‹_›, Or.inl rfl⟩
    · split at h
      · cases h
        exact ⟨‹_›, Or.inr rfl⟩
      · cases h
        rcases hchoice with hc | hc <;> rw [hc] <;> simp_all

theorem hit?_isSome (h : i.contains (i.floor k) k = true ∨ i.contains (i.floor k + 1) k = true) :
    (i.hit? tie k).isSome := by
  unfold hit?
  simp only
  rw [show i.value * Nat.pow 10 (-k).toNat / (i.den * Nat.pow 10 k.toNat) = i.floor k from rfl]
  split
  · simp_all
  · rfl
  · rfl
  · split
    · rfl
    · split <;> rfl

/-! ## The search -/

/-- When one of the grids has a hit, the search ends with the first. -/
theorem search_of_hit (n : ℕ) (k : ℤ) (h : ∃ j : ℕ, j < n ∧ (i.hit? tie (k - j)).isSome) :
    ∃ (j : ℕ) (d : ℕ), j < n ∧ i.search tie n k = ⟨d, k - j⟩ ∧ i.hit? tie (k - j) = some d := by
  induction n generalizing k with
  | zero =>
    obtain ⟨j, hj, -⟩ := h
    omega
  | succ n ih =>
    unfold search
    cases hk : i.hit? tie k with
    | some d => exact ⟨0, d, by omega, by simp, by simpa using hk⟩
    | none =>
      obtain ⟨j, hj, hs⟩ := h
      have hj0 : j ≠ 0 := by
        rintro rfl
        simp [hk] at hs
      obtain ⟨j, rfl⟩ := Nat.exists_eq_succ_of_ne_zero hj0
      have hstep (j : ℕ) : k - 1 - (j : ℤ) = k - (j + 1 : ℕ) := by push_cast; ring
      obtain ⟨l, d, hl, hres, hhit⟩ := ih (k - 1) ⟨j, by omega, by rw [hstep]; exact hs⟩
      rw [hstep] at hres hhit
      exact ⟨l + 1, d, by omega, hres, hhit⟩

/-- A grid whose unit is narrower than the interval has a hit. -/
theorem hit?_isSome_of_narrow {x : Binary64} (hx : 0 < x.significand) (tie : Tie)
    (hk : (10 : ℚ) ^ k / 2 ^ x.scale < 1 / 2 + below x / 4) :
    ((ofBinary64 x).hit? tie k).isSome := by
  have hden := den_pos x
  have hp := two_zpow_pos x.scale
  obtain ⟨hlow, hhigh⟩ := floor_bounds hden k
  rw [value_eq] at hlow hhigh
  apply hit?_isSome
  by_contra hnone
  push Not at hnone
  obtain ⟨hout, hout'⟩ := hnone
  rw [ne_eq, contains_iff hden] at hout hout'
  push_cast at hout'
  generalize (ofBinary64 x).floor k = f at *
  have hsize : x.size / 2 ^ x.scale = x.significand := by
    unfold Binary64.size
    field_simp
  have hf : (f : ℚ) * 10 ^ k / 2 ^ x.scale ≤ x.significand := by
    rw [← hsize]
    exact div_le_div_of_nonneg_right hlow hp.le
  have hf' : (x.significand : ℚ) < ((f : ℚ) + 1) * 10 ^ k / 2 ^ x.scale := by
    rw [← hsize]
    exact div_lt_div_of_pos_right hhigh hp
  have hstep : ((f : ℚ) + 1) * 10 ^ k / 2 ^ x.scale =
      f * 10 ^ k / 2 ^ x.scale + 10 ^ k / 2 ^ x.scale := by ring
  have hcut : ((4 * x.significand - below x : ℕ) : ℚ) / 4 = x.significand - below x / 4 := by
    rw [Nat.cast_sub (by have := below_le x; omega)]
    push_cast
    ring
  have hb : (1 : ℚ) ≤ below x := by exact_mod_cast below_pos x
  -- both neighbours of the value lie outside, each on its side
  have hleft : (f : ℚ) * 10 ^ k / 2 ^ x.scale ≤ x.significand - below x / 4 := by
    by_contra hin
    apply hout
    apply holds_of_between <;> linarith
  have hright : (x.significand : ℚ) + 1 / 2 ≤ ((f : ℚ) + 1) * 10 ^ k / 2 ^ x.scale := by
    by_contra hin
    apply hout'
    apply holds_of_between <;> linarith
  linarith

/-- Sixteen places behind the first digit of a double there is a decimal in its interval. -/
theorem seventeen_digits {x : Binary64} (hx : 0 < x.significand) (tie : Tie) :
    ((ofBinary64 x).hit? tie
      (decimalExponent (ofBinary64 x).value (ofBinary64 x).den - 16)).isSome := by
  have hp := two_zpow_pos x.scale
  have hvalue : 0 < (ofBinary64 x).value :=
    Nat.mul_pos (by omega) (Nat.pow_pos (by norm_num))
  obtain ⟨hfirst, -⟩ := decimalExponent_bounds hvalue (den_pos x)
  rw [value_eq] at hfirst
  generalize decimalExponent (ofBinary64 x).value (ofBinary64 x).den = e at *
  have hgrid : (10 : ℚ) ^ (e - 16) / 2 ^ x.scale * 10 ^ 16 ≤ x.significand := by
    rw [zpow_sub₀ (by norm_num), div_mul_eq_mul_div, div_le_iff₀ hp]
    unfold Binary64.size at hfirst
    norm_num at hfirst ⊢
    linarith
  apply hit?_isSome_of_narrow hx
  -- the significand has less than sixteen digits and a half
  rcases below_cases x with ⟨hb, hm⟩ | hb
  · rw [hm] at hgrid
    rw [hb]
    norm_num at hgrid ⊢
    linarith
  · have hlt := Binary64.significand_lt x
    have hm : (x.significand : ℚ) ≤ 9007199254740992 := by exact_mod_cast hlt.le
    rw [hb]
    norm_num at hgrid ⊢
    linarith

end Interval

/-! ## The shortest decimal -/

namespace Decimal

/-- The worth of a decimal. -/
def worth (d : Decimal) : ℚ := d.digits * 10 ^ d.exponent

/-- Trimming changes neither the worth of a decimal nor whether it is zero. -/
theorem trim_spec (d : Decimal) :
    d.trim.worth = d.worth ∧ d.trim.digits ≤ d.digits ∧ (0 < d.digits → 0 < d.trim.digits) ∧
      d.exponent ≤ d.trim.exponent := by
  fun_induction trim d with
  | case1 d h ih =>
    obtain ⟨hworth, hle, hpos, hexp⟩ := ih
    have hd : d.digits = 10 * (d.digits / 10) := by omega
    simp only at hle hpos hexp
    refine ⟨?_, by omega, fun _ => hpos (by omega), by omega⟩
    rw [hworth]
    unfold worth
    simp only
    rw [zpow_add_one₀ (by norm_num)]
    conv => rhs; rw [hd]
    push_cast
    ring
  | case2 d h => exact ⟨rfl, le_rfl, id, le_rfl⟩

end Decimal

/-- The shortest decimal lies in the interval of its double, has at most seventeen digits, and none
of them stands further behind the first digit of the double than sixteen places. -/
theorem shortest_spec (tie : Tie) {x : Binary64} (hx : 0 < x.significand) :
    (Interval.ofBinary64 x).Holds (shortest tie x).worth ∧ 0 < (shortest tie x).digits ∧
      (shortest tie x).digits ≤ 10 ^ 17 ∧
      decimalExponent (Interval.ofBinary64 x).value (Interval.ofBinary64 x).den - 16 ≤
        (shortest tie x).exponent := by
  have hden := Interval.den_pos x
  have hvalue : 0 < (Interval.ofBinary64 x).value :=
    Nat.mul_pos (by omega) (Nat.pow_pos (by norm_num))
  obtain ⟨hfirst, hnext⟩ := decimalExponent_bounds hvalue hden
  have hseventeen := Interval.seventeen_digits hx tie
  unfold shortest
  rw [if_neg (by omega)]
  simp only
  generalize decimalExponent (Interval.ofBinary64 x).value (Interval.ofBinary64 x).den = e at *
  obtain ⟨j, d, hj, hres, hhit⟩ := Interval.search_of_hit 17 e ⟨16, by norm_num, hseventeen⟩
  obtain ⟨hin, hneighbour⟩ := Interval.hit?_some hhit
  obtain ⟨hlow, hhigh⟩ := Interval.floor_bounds hden (e - j)
  obtain ⟨hworth, hle, hpos, hexp⟩ := Decimal.trim_spec ⟨d, e - j⟩
  have hg := ten_zpow_pos (e - j)
  -- the value has a digit in front of the grid, so the neighbours are not zero
  have hd1 : 1 ≤ (Interval.ofBinary64 x).floor (e - j) := by
    by_contra hzero
    rw [show (Interval.ofBinary64 x).floor (e - j) = 0 by omega] at hhigh
    have hmono : (10 : ℚ) ^ (e - j) ≤ 10 ^ e := zpow_le_zpow_right₀ (by norm_num) (by omega)
    norm_num at hhigh
    linarith
  -- the search tries seventeen grids at most
  have hd2 : (Interval.ofBinary64 x).floor (e - j) < 10 ^ 17 := by
    have hlt : ((Interval.ofBinary64 x).floor (e - j) : ℚ) * 10 ^ (e - j) < 10 ^ (e + 1) := by
      linarith
    rw [← lt_div_iff₀ hg, ← zpow_sub₀ (by norm_num)] at hlt
    have hmono : (10 : ℚ) ^ (e + 1 - (e - j)) ≤ 10 ^ (17 : ℤ) :=
      zpow_le_zpow_right₀ (by norm_num) (by omega)
    have := hlt.trans_le hmono
    exact_mod_cast this
  rw [hres]
  refine ⟨?_, hpos (by simp only; omega), by simp only at hle; omega, by simp only at hexp; omega⟩
  rw [hworth]
  exact (Interval.contains_iff hden d (e - j)).1 hin

end Telemetry.Number
