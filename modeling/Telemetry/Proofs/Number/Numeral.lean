/-
A numeral that is written and read again is the same numeral, whatever follows it that cannot be
part of a number, and so is one that somebody else spelt. What it is worth depends on its digits and
on one exponent.
-/
import Telemetry.Proofs.Number.Digits

namespace Telemetry.Number

open Text (Utf8.encode)

/-! ## Writing a numeral -/

/-- The point and the digits behind it. -/
def fractionChars : Option (List ℕ) → List Char
  | none => []
  | some ds => '.' :: ds.map digitChar

/-- The exponent part, always with a sign. -/
def powerChars : Option TenPower → List Char
  | none => []
  | some p => 'e' :: (if p.negative then '-' else '+') :: p.digits.map digitChar

namespace Numeral

/-- A numeral as it is written. -/
def chars (n : Numeral) : List Char :=
  (if n.negative then ['-'] else []) ++ (n.whole.map digitChar ++
    (fractionChars n.fraction ++ powerChars n.power))

/-- A row of digits that is not empty. -/
def IsDigits (ds : List ℕ) : Prop := ds ≠ [] ∧ ∀ d ∈ ds, d < 10

/-- What the grammar asks of the parts of a numeral. -/
structure WellFormed (n : Numeral) : Prop where
  whole : IsDigits n.whole
  no_leading_zero : 1 < n.whole.length → n.whole.head? ≠ some 0
  fraction : ∀ ds ∈ n.fraction, IsDigits ds
  power : ∀ p ∈ n.power, IsDigits p.digits

end Numeral

theorem isDigits_digitRow (n : ℕ) : Numeral.IsDigits (digitRow n) :=
  ⟨digitRow_ne_nil n, fun _ => lt_ten_of_mem_digitRow⟩

theorem encode_append (cs ds : List Char) : Utf8.encode (cs ++ ds) = Utf8.encode cs ++ Utf8.encode ds :=
  List.flatMap_append

theorem encode_cons (c : Char) (cs : List Char) :
    Utf8.encode (c :: cs) = Text.Utf8.encodeChar c ++ Utf8.encode cs := rfl

/-! ## Spelling a numeral -/

/-- The point and the digits behind it as octets. -/
def fractionOctets : Option (List ℕ) → List UInt8
  | none => []
  | some ds => 46 :: ds.map digitOctet

/-- The ways to spell an exponent part: the letter may be a capital, and a plus may be left out. -/
inductive PowerSpelling : Option TenPower → List UInt8 → Prop where
  | absent : PowerSpelling none []
  | unsigned {e : UInt8} (letter : e = 101 ∨ e = 69) (ds : List ℕ) :
    PowerSpelling (some ⟨false, ds⟩) (e :: ds.map digitOctet)
  | signed {e : UInt8} (letter : e = 101 ∨ e = 69) (p : TenPower) :
    PowerSpelling (some p) (e :: (if p.negative then 45 else 43) :: p.digits.map digitOctet)

/-- The ways to spell a numeral. -/
inductive Numeral.Spelling (n : Numeral) : List UInt8 → Prop where
  | mk {x : List UInt8} (wellFormed : n.WellFormed) (power : PowerSpelling n.power x) :
    Numeral.Spelling n ((if n.negative then [45] else []) ++
      (n.whole.map digitOctet ++ (fractionOctets n.fraction ++ x)))

theorem encode_fractionChars {f : Option (List ℕ)} (h : ∀ ds ∈ f, Numeral.IsDigits ds) :
    Utf8.encode (fractionChars f) = fractionOctets f := by
  cases f with
  | none => rfl
  | some ds =>
    rw [fractionChars, encode_cons, encode_digitChars (h ds rfl).2]
    rfl

theorem powerSpelling_chars {p : Option TenPower} (h : ∀ q ∈ p, Numeral.IsDigits q.digits) :
    PowerSpelling p (Utf8.encode (powerChars p)) := by
  cases p with
  | none => exact .absent
  | some q =>
    have hsigned := PowerSpelling.signed (e := 101) (Or.inl rfl) q
    rw [powerChars, encode_cons, encode_cons, encode_digitChars (h q rfl).2]
    cases hq : q.negative <;> rw [hq] at hsigned <;> exact hsigned

/-- What is written is one of the spellings. -/
theorem Numeral.WellFormed.spelling_chars {n : Numeral} (h : n.WellFormed) :
    n.Spelling (Utf8.encode n.chars) := by
  have hchars : Utf8.encode n.chars = (if n.negative then [45] else []) ++
      (n.whole.map digitOctet ++ (fractionOctets n.fraction ++ Utf8.encode (powerChars n.power))) := by
    unfold Numeral.chars
    rw [encode_append, encode_append, encode_append, encode_digitChars h.whole.2,
      encode_fractionChars h.fraction]
    cases n.negative <;> rfl
  rw [hchars]
  exact .mk h (powerSpelling_chars h.power)

/-! ## Reading it again -/

/-- Whether a number is over where a text begins. -/
def Ends (rest : List UInt8) : Prop :=
  ∀ b ∈ rest.head?, digit? b = none ∧ b ≠ 46 ∧ b ≠ 101 ∧ b ≠ 69

theorem Numeral.IsDigits.first {ds : List ℕ} (h : Numeral.IsDigits ds) (rest : List UInt8) :
    ∃ b bs, ds.map digitOctet ++ rest = b :: bs ∧ 48 ≤ b ∧ b ≤ 57 := by
  obtain ⟨hne, hlt⟩ := h
  cases ds with
  | nil => exact absurd rfl hne
  | cons d ds =>
    have hall : ∀ d < 10, 48 ≤ digitOctet d ∧ digitOctet d ≤ 57 := by decide
    exact ⟨digitOctet d, ds.map digitOctet ++ rest, rfl, hall d (hlt d List.mem_cons_self)⟩

theorem readPower_spelling {p : Option TenPower} {x rest : List UInt8} (h : PowerSpelling p x)
    (hp : ∀ q ∈ p, Numeral.IsDigits q.digits) (hrest : Ends rest) :
    readPower (x ++ rest) = some (p, rest) := by
  have hsplit {ds : List ℕ} (hds : Numeral.IsDigits ds) :
      splitDigits [] (ds.map digitOctet ++ rest) = (ds, rest) := by
    rw [splitDigits_append [] hds.2 fun b hb => (hrest b hb).1, List.reverse_nil, List.nil_append]
  cases h with
  | absent =>
    cases rest with
    | nil => rfl
    | cons b bs =>
      obtain ⟨-, -, he, hE⟩ := hrest b rfl
      simp [readPower, he, hE]
  | unsigned letter ds =>
    have hds : Numeral.IsDigits ds := hp _ rfl
    obtain ⟨b, bs, hfirst, hlow, -⟩ := hds.first rest
    have hread := hsplit hds
    rw [hfirst] at hread
    rw [List.cons_append, hfirst]
    unfold readPower
    show (if _ then _ else _) = _
    rw [if_pos letter]
    split
    rename_i negative r hsign
    -- no digit looks like a sign
    obtain ⟨rfl, rfl⟩ : false = negative ∧ b :: bs = r := by
      split at hsign
      · rename_i hminus
        cases hminus
        exact absurd hlow (by decide)
      · rename_i hplus
        cases hplus
        exact absurd hlow (by decide)
      · exact Prod.mk.inj hsign
    rw [hread]
    cases ds with
    | nil => exact absurd rfl hds.1
    | cons d ds => rfl
  | signed letter q =>
    obtain ⟨negative, ds⟩ := q
    have hds : Numeral.IsDigits ds := hp _ rfl
    have hread := hsplit hds
    unfold readPower
    simp only [List.cons_append]
    rw [if_pos letter]
    cases ds with
    | nil => exact absurd rfl hds.1
    | cons d ds => cases negative <;> simp only [Bool.false_eq_true, if_false, if_true, hread]

theorem readFraction_octets {f : Option (List ℕ)} {rest : List UInt8}
    (hf : ∀ ds ∈ f, Numeral.IsDigits ds) (hrest : ∀ b ∈ rest.head?, digit? b = none ∧ b ≠ 46) :
    readFraction (fractionOctets f ++ rest) = some (f, rest) := by
  cases f with
  | none =>
    cases rest with
    | nil => rfl
    | cons b bs =>
      obtain ⟨-, hpoint⟩ := hrest b rfl
      unfold readFraction
      simp only [fractionOctets, List.nil_append]
      split
      · rename_i h
        cases h
        exact absurd rfl hpoint
      · rfl
  | some ds =>
    have hds := hf ds rfl
    have hsplit := splitDigits_append [] hds.2 fun b hb => (hrest b hb).1
    rw [List.reverse_nil, List.nil_append] at hsplit
    cases ds with
    | nil => exact absurd rfl hds.1
    | cons d ds =>
      unfold readFraction fractionOctets
      simp only [List.cons_append]
      rw [hsplit]

/-- Behind the digits of a number neither a point nor another digit can be mistaken. -/
theorem PowerSpelling.ends {p : Option TenPower} {x rest : List UInt8} (h : PowerSpelling p x)
    (hrest : Ends rest) : ∀ b ∈ (x ++ rest).head?, digit? b = none ∧ b ≠ 46 := by
  have hletter {e : UInt8} (he : e = 101 ∨ e = 69) : digit? e = none ∧ e ≠ 46 := by
    rcases he with rfl | rfl <;> decide
  intro b hb
  cases h with
  | absent =>
    obtain ⟨hd, hpoint, -⟩ := hrest b hb
    exact ⟨hd, hpoint⟩
  | unsigned letter ds =>
    cases hb
    exact hletter letter
  | signed letter q =>
    cases hb
    exact hletter letter

theorem ends_fractionOctets {f : Option (List ℕ)} {rest : List UInt8}
    (hrest : ∀ b ∈ rest.head?, digit? b = none ∧ b ≠ 46) :
    ∀ b ∈ (fractionOctets f ++ rest).head?, digit? b = none := by
  cases f with
  | none =>
    intro b hb
    exact (hrest b hb).1
  | some ds =>
    intro b hb
    obtain rfl : 46 = b := Option.some.inj hb
    decide

namespace Numeral

variable {n : Numeral} {x : List UInt8}

/-- What a numeral begins with. -/
theorem Spelling.first (h : n.Spelling x) (rest : List UInt8) :
    ∃ b bs, x ++ rest = b :: bs ∧ (b = 45 ∨ (48 ≤ b ∧ b ≤ 57)) := by
  obtain @⟨p, hn, -⟩ := h
  cases n.negative with
  | true => exact ⟨45, _, rfl, Or.inl rfl⟩
  | false =>
    obtain ⟨b, bs, hb, hrange⟩ := hn.whole.first (fractionOctets n.fraction ++ p ++ rest)
    refine ⟨b, bs, ?_, Or.inr hrange⟩
    rw [← hb]
    simp

/-- Reading takes a numeral off the front of a text, however it is spelt. -/
theorem readNumeral_spelling (h : n.Spelling x) {rest : List UInt8} (hrest : Ends rest) :
    readNumeral (x ++ rest) = some (n, rest) := by
  obtain @⟨p, hn, hp⟩ := h
  have hpower := readPower_spelling hp hn.power hrest
  have hfraction := readFraction_octets hn.fraction (hp.ends hrest)
  have hwhole := splitDigits_append [] hn.whole.2 (ends_fractionOctets (f := n.fraction) (hp.ends hrest))
  rw [List.reverse_nil, List.nil_append] at hwhole
  have hguard : ¬(n.whole = [] ∨ (1 < n.whole.length ∧ n.whole.head? = some 0)) := by
    rintro (hnil | ⟨hlong, hzero⟩)
    · exact hn.whole.1 hnil
    · exact hn.no_leading_zero hlong hzero
  obtain ⟨b, bs, hfirst, hlow, -⟩ := hn.whole.first (fractionOctets n.fraction ++ (p ++ rest))
  rw [List.append_assoc, List.append_assoc, List.append_assoc]
  unfold readNumeral
  split
  rename_i negative r hsign
  -- the sign is read as it was written, since no digit looks like one
  obtain ⟨rfl, rfl⟩ : n.negative = negative ∧
      n.whole.map digitOctet ++ (fractionOctets n.fraction ++ (p ++ rest)) = r := by
    cases hneg : n.negative with
    | true =>
      rw [hneg] at hsign
      exact Prod.mk.inj hsign
    | false =>
      rw [hneg, if_neg Bool.false_ne_true, List.nil_append, hfirst] at hsign
      rw [hfirst]
      split at hsign
      · rename_i hminus
        cases hminus
        exact absurd hlow (by decide)
      · exact Prod.mk.inj hsign
  rw [hwhole]
  simp only [if_neg hguard, hfraction, hpower, Option.bind_eq_bind, Option.bind_some,
    Option.pure_def]

/-! ## The worth of a numeral -/

/-- The exponent that an exponent part stands for. -/
def exponentOf : Option TenPower → ℤ
  | none => 0
  | some p => if p.negative then -(digitsValue p.digits : ℤ) else digitsValue p.digits

/-- All digits of a numeral as one number, and the power of ten that makes up for the point. -/
def written (n : Numeral) : Decimal :=
  ⟨digitsValue (n.whole ++ n.fraction.getD []), exponentOf n.power - (n.fraction.getD []).length⟩

theorem parts_eq {n : Numeral} (h : n.written.digits < 0x10000000000000000) :
    n.parts = (n.written.digits, -((n.fraction.getD []).length : ℤ)) := by
  have hsum := digitsValue_append n.whole (n.fraction.getD [])
  -- the digits in front of the point fit a word if all digits do
  have hwhole : digitsValue n.whole ≤ n.written.digits := by
    unfold written
    simp only
    rw [hsum]
    have := Nat.le_mul_of_pos_right (digitsValue n.whole)
      (Nat.pow_pos (n := (n.fraction.getD []).length) (by norm_num : 0 < 10))
    omega
  have hg := gather_eq 0 0 n.whole (by simp only [Nat.zero_mul, Nat.zero_add]; omega)
  rw [Nat.zero_mul, Nat.zero_add, Nat.zero_add] at hg
  unfold written at h ⊢
  unfold parts
  simp only at h ⊢
  rw [hg]
  cases hf : n.fraction with
  | none => simp
  | some ds =>
    rw [hf, Option.getD_some] at h hsum
    rw [hsum] at h
    simp only [Option.getD_some]
    rw [gather_eq _ _ _ h, hsum]
    simp

/-- A numeral whose digits fit a word is read in one go: its digits and its exponent decide. -/
theorem double?_eq {n : Numeral} (h : n.written.digits < 0x10000000000000000)
    (hp : ∀ p ∈ n.power, digitsValue p.digits ≤ largestPower) :
    n.double? =
      (scaleByTen (Binary64.ofNat n.written.digits) n.written.exponent).map (signed n.negative) := by
  have hexp : n.written.exponent = exponentOf n.power - ((n.fraction.getD []).length : ℤ) := rfl
  unfold double?
  rw [parts_eq h]
  simp only
  rw [hexp]
  cases hpow : n.power with
  | none => simp [exponentOf, sub_eq_add_neg]
  | some p =>
    have hle := hp p hpow
    simp only
    rw [if_neg (by omega)]
    congr 2
    obtain ⟨negative, ds⟩ := p
    cases negative with
    | false =>
      simp only [exponentOf, Bool.false_eq_true, if_false]
      ring
    | true =>
      simp only [exponentOf, if_true]
      ring

end Numeral

end Telemetry.Number
