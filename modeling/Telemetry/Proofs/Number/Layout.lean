/-
The text of a double is the text of a numeral. Its digits are those of the shortest decimal, except
that a whole number in its place has one more: the zero behind the point.
-/
import Telemetry.Proofs.Number.Shortest
import Telemetry.Proofs.Number.Numeral

namespace Telemetry.Number

namespace Decimal

/-- The numeral of a decimal with every digit in its place. -/
def inPlace (negative : Bool) (d : Decimal) : Numeral :=
  let ds := digitRow d.digits
  if 0 ≤ d.exponent then ⟨negative, ds ++ List.replicate d.exponent.toNat 0, some [0], none⟩
  else
    let places := (-d.exponent).toNat
    if places < ds.length then
      ⟨negative, ds.take (ds.length - places), some (ds.drop (ds.length - places)), none⟩
    else ⟨negative, [0], some (List.replicate (places - ds.length) 0 ++ ds), none⟩

/-- The numeral of a decimal with one digit before the point. -/
def scaled (negative : Bool) (d : Decimal) : Numeral :=
  let ds := digitRow d.digits
  ⟨negative, ds.take 1, if ds.drop 1 = [] then none else some (ds.drop 1),
    some ⟨d.leading < 0, digitRow d.leading.natAbs⟩⟩

/-- The numeral that stands for a decimal on the wire. -/
def numeral (negative : Bool) (d : Decimal) : Numeral :=
  if isPositional d.leading then d.inPlace negative else d.scaled negative

/-- The digits of a decimal as they stand in its text. -/
def asWritten (d : Decimal) : Decimal :=
  if isPositional d.leading ∧ 0 ≤ d.exponent then ⟨d.digits * 10 ^ (d.exponent.toNat + 1), -1⟩ else d

variable {negative : Bool} {d : Decimal}

/-! ## The characters -/

theorem chars_inPlace (negative : Bool) (d : Decimal) :
    (d.inPlace negative).chars = (if negative then ['-'] else []) ++ positional d := by
  unfold inPlace positional
  simp only [digitChars_eq, List.length_map]
  have hzero : digitChar 0 = '0' := rfl
  split
  · simp [Numeral.chars, fractionChars, powerChars, hzero]
  · split
    · simp [Numeral.chars, fractionChars, powerChars]
    · simp [Numeral.chars, fractionChars, powerChars, hzero]

theorem chars_scaled (negative : Bool) (d : Decimal) :
    (d.scaled negative).chars = (if negative then ['-'] else []) ++ scientific d := by
  unfold scaled scientific
  simp only [digitChars_eq]
  cases hds : digitRow d.digits with
  | nil => exact absurd hds (digitRow_ne_nil _)
  | cons c cs =>
    cases cs with
    | nil => simp [Numeral.chars, fractionChars, powerChars]
    | cons c' cs' => simp [Numeral.chars, fractionChars, powerChars]

/-! ## The grammar -/

theorem wellFormed_inPlace (negative : Bool) (h : 0 < d.digits ∨ d.exponent = 0) :
    (d.inPlace negative).WellFormed := by
  have hdigits := isDigits_digitRow d.digits
  have hzero : Numeral.IsDigits [0] := ⟨by simp, by simp⟩
  have hhead : 1 < (digitRow d.digits).length → (digitRow d.digits).head? ≠ some 0 := by
    intro hlong
    apply head_digitRow
    by_contra hd
    rw [show d.digits = 0 by omega, length_digitRow, log10, if_pos (by norm_num)] at hlong
    omega
  unfold inPlace
  simp only
  split
  · -- zeros behind the digits: only zero itself could begin with one, and it has no more
    refine ⟨⟨by simp [digitRow_ne_nil], ?_⟩, ?_, ?_, by simp⟩
    · intro c hc
      rcases List.mem_append.1 hc with hc | hc
      · exact hdigits.2 c hc
      · rw [List.eq_of_mem_replicate hc]
        norm_num
    · rcases h with h | h
      · intro _
        rw [List.head?_append]
        cases hfirst : (digitRow d.digits).head? with
        | none => exact absurd (List.head?_eq_none_iff.1 hfirst) (digitRow_ne_nil _)
        | some c =>
          have := head_digitRow h
          rw [hfirst] at this
          exact this
      · simpa [h] using hhead
    · rintro ds ⟨⟩
      exact hzero
  · rename_i hexp
    split
    · rename_i hplaces
      -- the point stands between two digits, so there are digits on both sides
      refine ⟨⟨?_, ?_⟩, ?_, ?_, by simp⟩
      · apply List.ne_nil_of_length_pos
        rw [List.length_take]
        omega
      · intro c hc
        exact hdigits.2 c (List.mem_of_mem_take hc)
      · intro hlong
        rw [List.length_take] at hlong
        rw [List.head?_take, if_neg (by omega)]
        exact hhead (by omega)
      · rintro ds ⟨⟩
        constructor
        · apply List.ne_nil_of_length_pos
          rw [List.length_drop]
          omega
        · intro c hc
          exact hdigits.2 c (List.mem_of_mem_drop hc)
    · -- all digits stand behind the point
      refine ⟨hzero, by simp, ?_, by simp⟩
      rintro ds ⟨⟩
      refine ⟨by simp [digitRow_ne_nil], ?_⟩
      intro c hc
      rcases List.mem_append.1 hc with hc | hc
      · rw [List.eq_of_mem_replicate hc]
        norm_num
      · exact hdigits.2 c hc

theorem wellFormed_scaled (negative : Bool) (d : Decimal) : (d.scaled negative).WellFormed := by
  have hdigits := isDigits_digitRow d.digits
  have hlength := length_digitRow d.digits
  unfold scaled
  simp only
  refine ⟨⟨?_, ?_⟩, ?_, ?_, ?_⟩
  · apply List.ne_nil_of_length_pos
    rw [List.length_take]
    omega
  · intro c hc
    exact hdigits.2 c (List.mem_of_mem_take hc)
  · intro hlong
    rw [List.length_take] at hlong
    omega
  · intro ds hds
    split at hds
    · simp at hds
    · rename_i hne
      cases hds
      exact ⟨hne, fun c hc => hdigits.2 c (List.mem_of_mem_drop hc)⟩
  · rintro p ⟨⟩
    exact isDigits_digitRow _

theorem wellFormed_numeral (negative : Bool) (h : 0 < d.digits ∨ d.exponent = 0) :
    (d.numeral negative).WellFormed := by
  unfold numeral
  split
  · exact wellFormed_inPlace negative h
  · exact wellFormed_scaled negative d

/-! ## The worth -/

theorem written_inPlace (negative : Bool) (d : Decimal) :
    (d.inPlace negative).written =
      if 0 ≤ d.exponent then ⟨d.digits * 10 ^ (d.exponent.toNat + 1), -1⟩ else d := by
  unfold inPlace
  simp only
  split
  · simp [Numeral.written, Numeral.exponentOf, digitsValue_append, digitsValue_zeros,
      digitsValue_cons, pow_succ]
  · rename_i hexp
    split
    · have : (-d.exponent).toNat < (digitRow d.digits).length := ‹_›
      simp only [Numeral.written, Numeral.exponentOf, Option.getD_some, List.take_append_drop,
        digitsValue_digitRow, List.length_drop]
      congr 1
      omega
    · have : ¬(-d.exponent).toNat < (digitRow d.digits).length := ‹_›
      simp only [Numeral.written, Numeral.exponentOf, Option.getD_some, List.length_append,
        List.length_replicate, digitsValue_append, digitsValue_zeros, digitsValue_digitRow,
        digitsValue_cons, digitsValue_nil]
      congr 1
      · simp
      · omega

theorem written_scaled (negative : Bool) (d : Decimal) : (d.scaled negative).written = d := by
  have hlength := length_digitRow d.digits
  have hsplit : (digitRow d.digits).take 1 ++ (digitRow d.digits).drop 1 = digitRow d.digits :=
    List.take_append_drop 1 _
  have hfraction : (if (digitRow d.digits).drop 1 = [] then none
      else some ((digitRow d.digits).drop 1)).getD [] = (digitRow d.digits).drop 1 := by
    split
    · rename_i hnil
      rw [hnil, Option.getD_none]
    · rw [Option.getD_some]
  have hlead : Numeral.exponentOf (some ⟨d.leading < 0, digitRow d.leading.natAbs⟩) = d.leading := by
    unfold Numeral.exponentOf
    simp only [digitsValue_digitRow, decide_eq_true_eq]
    split <;> omega
  unfold scaled Numeral.written
  simp only
  rw [hfraction, hlead, hsplit, digitsValue_digitRow, List.length_drop, hlength]
  unfold leading
  congr 1
  omega

theorem written_numeral (negative : Bool) (d : Decimal) : (d.numeral negative).written = d.asWritten := by
  unfold numeral asWritten
  by_cases hpos : isPositional d.leading = true
  · rw [if_pos hpos, written_inPlace]
    simp [hpos]
  · rw [if_neg hpos, written_scaled, if_neg fun h => hpos h.1]

/-- The extra zero changes nothing about what the decimal is worth. -/
theorem worth_asWritten (d : Decimal) : d.asWritten.worth = d.worth := by
  unfold asWritten
  split
  · rename_i h
    obtain ⟨n, hn⟩ := Int.eq_ofNat_of_zero_le h.2
    unfold worth
    simp only [hn, Int.toNat_natCast, zpow_natCast, zpow_neg_one]
    push_cast
    rw [pow_succ]
    field_simp
  · rfl

end Decimal

/-- A finite double's text is that of a numeral with its sign and its shortest decimal. -/
theorem wireChars_eq (x : Binary64) :
    wireChars x = ((shortest .toEven x).numeral x.isNegative).chars := by
  unfold wireChars Decimal.numeral
  simp only
  by_cases hpos : isPositional (shortest .toEven x).leading = true
  · rw [if_pos hpos, if_pos hpos, Decimal.chars_inPlace]
    cases x.isNegative <;> rfl
  · rw [if_neg hpos, if_neg hpos, Decimal.chars_scaled]
    cases x.isNegative <;> rfl

end Telemetry.Number
