/-
The digits of a number in both directions: written, split off again and gathered, they give the
number back.
-/
import Mathlib.Tactic.IntervalCases
import Mathlib.Tactic.Ring
import Telemetry.Number.Layout
import Telemetry.Number.Numeral
import Telemetry.Text.Utf8

namespace Telemetry.Number

/-! ## The digits of a number -/

/-- The values of the decimal digits of a number, most significant first. -/
def digitRow (n : ℕ) : List ℕ :=
  if n < 10 then [n] else digitRow (n / 10) ++ [n % 10]
termination_by n
decreasing_by omega

/-- A digit as a character. -/
def digitChar (d : ℕ) : Char := Char.ofNat (48 + d)

/-- A digit as an octet. -/
def digitOctet (d : ℕ) : UInt8 := UInt8.ofNat (48 + d)

theorem digitChars_eq (n : ℕ) : digitChars n = (digitRow n).map digitChar := by
  fun_induction digitRow n with
  | case1 n h =>
    rw [digitChars, if_pos h]
    rfl
  | case2 n h ih =>
    rw [digitChars, if_neg h, ih, List.map_append]
    rfl

theorem lt_ten_of_mem_digitRow {n d : ℕ} (h : d ∈ digitRow n) : d < 10 := by
  fun_induction digitRow n with
  | case1 n hn =>
    rw [List.mem_singleton] at h
    omega
  | case2 n hn ih =>
    rw [List.mem_append, List.mem_singleton] at h
    rcases h with h | rfl
    · exact ih h
    · omega

theorem length_digitRow (n : ℕ) : (digitRow n).length = log10 n + 1 := by
  fun_induction digitRow n with
  | case1 n h =>
    rw [log10, if_pos h]
    rfl
  | case2 n h ih =>
    rw [log10, if_neg h, List.length_append, ih]
    rfl

theorem digitRow_ne_nil (n : ℕ) : digitRow n ≠ [] := by
  apply List.ne_nil_of_length_pos
  rw [length_digitRow]
  omega

theorem head_digitRow {n : ℕ} (h : 0 < n) : (digitRow n).head? ≠ some 0 := by
  fun_induction digitRow n with
  | case1 n hn =>
    simp only [List.head?_cons, ne_eq, Option.some.injEq]
    omega
  | case2 n hn ih =>
    rw [List.head?_append]
    cases hfirst : (digitRow (n / 10)).head? with
    | none => exact absurd (List.head?_eq_none_iff.1 hfirst) (digitRow_ne_nil _)
    | some d =>
      rw [hfirst] at ih
      exact ih (by omega)

/-! ## The worth of a row of digits -/

theorem digitsValue_from (n : ℕ) (ds : List ℕ) :
    ds.foldl (fun n d => n * 10 + d) n = n * 10 ^ ds.length + digitsValue ds := by
  unfold digitsValue
  induction ds generalizing n with
  | nil => simp
  | cons d ds ih =>
    rw [List.foldl_cons, List.foldl_cons, ih, ih (0 * 10 + d), List.length_cons]
    ring

theorem digitsValue_cons (d : ℕ) (ds : List ℕ) :
    digitsValue (d :: ds) = d * 10 ^ ds.length + digitsValue ds := by
  have := digitsValue_from d ds
  unfold digitsValue at *
  rw [List.foldl_cons, ← this, Nat.zero_mul, Nat.zero_add]

theorem digitsValue_append (ds es : List ℕ) :
    digitsValue (ds ++ es) = digitsValue ds * 10 ^ es.length + digitsValue es := by
  conv => lhs; unfold digitsValue
  rw [List.foldl_append, digitsValue_from]
  rfl

@[simp] theorem digitsValue_nil : digitsValue [] = 0 := rfl

theorem digitsValue_zeros (k : ℕ) : digitsValue (List.replicate k 0) = 0 := by
  induction k with
  | zero => rfl
  | succ k ih => rw [List.replicate_succ, digitsValue_cons, ih, Nat.zero_mul]

@[simp] theorem digitsValue_digitRow (n : ℕ) : digitsValue (digitRow n) = n := by
  fun_induction digitRow n with
  | case1 n h => simp [digitsValue]
  | case2 n h ih =>
    rw [digitsValue_append, ih]
    simp only [digitsValue, List.foldl_cons, List.foldl_nil, List.length_cons, List.length_nil]
    omega

/-- Digits whose worth fits the word are all gathered. -/
theorem gather_eq (n taken : ℕ) (ds : List ℕ)
    (h : n * 10 ^ ds.length + digitsValue ds < 0x10000000000000000) :
    gather n taken ds = (n * 10 ^ ds.length + digitsValue ds, taken + ds.length) := by
  induction ds generalizing n taken with
  | nil => simp [gather]
  | cons d ds ih =>
    have hstep : n * 10 ^ (d :: ds).length + digitsValue (d :: ds) =
        (n * 10 + d) * 10 ^ ds.length + digitsValue ds := by
      rw [digitsValue_cons, List.length_cons]
      ring
    rw [hstep] at h ⊢
    have hfits : n * 10 + d < 0x10000000000000000 := by
      have : n * 10 + d ≤ (n * 10 + d) * 10 ^ ds.length := Nat.le_mul_of_pos_right _ (by positivity)
      omega
    unfold gather
    rw [if_pos hfits, ih _ _ h, List.length_cons]
    congr 1
    omega

/-! ## Digits as text -/

theorem encode_digitChars {ds : List ℕ} (h : ∀ d ∈ ds, d < 10) :
    Text.Utf8.encode (ds.map digitChar) = ds.map digitOctet := by
  have hone : ∀ d < 10, Text.Utf8.encodeChar (digitChar d) = [digitOctet d] := by decide
  unfold Text.Utf8.encode
  induction ds with
  | nil => rfl
  | cons d ds ih =>
    rw [List.map_cons, List.flatMap_cons, hone d (h d List.mem_cons_self),
      ih fun e he => h e (List.mem_cons_of_mem _ he)]
    rfl

theorem digit?_digitOctet {d : ℕ} (h : d < 10) : digit? (digitOctet d) = some d := by
  have hall : ∀ d < 10, digit? (digitOctet d) = some d := by decide
  exact hall d h

/-- A row of digits ends where no digit follows. -/
theorem splitDigits_append (acc : List ℕ) {ds : List ℕ} {rest : List UInt8}
    (hds : ∀ d ∈ ds, d < 10) (hrest : ∀ b ∈ rest.head?, digit? b = none) :
    splitDigits acc (ds.map digitOctet ++ rest) = (acc.reverse ++ ds, rest) := by
  induction ds generalizing acc with
  | nil =>
    cases rest with
    | nil => simp [splitDigits]
    | cons b bs =>
      have hb : digit? b = none := hrest b rfl
      simp [splitDigits, hb]
  | cons d ds ih =>
    have hd := digit?_digitOctet (hds d List.mem_cons_self)
    rw [List.map_cons, List.cons_append, splitDigits, hd]
    simp only
    rw [ih _ fun e he => hds e (List.mem_cons_of_mem _ he)]
    simp

end Telemetry.Number
