/-
Two batches have one text only when they are the same batch, up to which double stands where a gauge
is no number. A text is a row of tokens in one way, the thirteen tokens of a record say where it
ends, whatever its name looks like, and no two finite doubles share a numeral: what a numeral is
worth lies in the rounding interval of one magnitude, and its sign is written.
-/
import Telemetry.Proofs.Wire.Batch

namespace Telemetry

open Json (Token)
open Number (Binary64 Interval shortest)

/-! ## Numerals -/

namespace Number

/-- A number lies in the rounding intervals of one magnitude. -/
theorem magnitude_eq_of_holds {x y : Binary64} {q : ℚ} (hx : x.isFinite = true)
    (hy : y.isFinite = true) (hq : 0 ≤ q) (hxq : (Interval.ofBinary64 x).Holds q)
    (hyq : (Interval.ofBinary64 y).Holds q) : x.magnitude = y.magnitude :=
  calc x.magnitude = Binary64.roundRat q := ((Binary64.roundRat_eq_iff hx hq).2 hxq).symm
    _ = y.magnitude := (Binary64.roundRat_eq_iff hy hq).2 hyq

theorem Decimal.worth_nonneg (d : Decimal) : 0 ≤ d.worth :=
  mul_nonneg (Nat.cast_nonneg _) (ten_zpow_pos _).le

theorem Decimal.negative_numeral (negative : Bool) (d : Decimal) :
    (d.numeral negative).negative = negative := by
  unfold Decimal.numeral Decimal.inPlace Decimal.scaled
  simp only
  split
  · split
    · rfl
    · split <;> rfl
  · rfl

end Number

namespace Wire

theorem integerNumeral_inj {d e : Int64}
    (h : Number.integerNumeral d.toInt = Number.integerNumeral e.toInt) : d = e := by
  obtain ⟨r, hread, hint⟩ := reading?_integerNumeral d
  obtain ⟨s, hread', hint'⟩ := reading?_integerNumeral e
  rw [h, hread'] at hread
  obtain rfl : s = r := Option.some.inj hread
  rw [hint'] at hint
  exact (Except.ok.inj hint).symm

/-- The digits tell the magnitude, in place or with an exponent, and the sign stands in front. -/
theorem gaugeNumeral_inj {x y : Binary64} (hx : x.isFinite = true) (hy : y.isFinite = true)
    (h : gaugeNumeral x = gaugeNumeral y) : x = y := by
  have hworth : (shortest .toEven x).worth = (shortest .toEven y).worth :=
    calc (shortest .toEven x).worth = (gaugeNumeral x).written.worth := by
          rw [gaugeNumeral, Number.Decimal.written_numeral, Number.Decimal.worth_asWritten]
      _ = (gaugeNumeral y).written.worth := by rw [h]
      _ = (shortest .toEven y).worth := by
          rw [gaugeNumeral, Number.Decimal.written_numeral, Number.Decimal.worth_asWritten]
  apply Binary64.eq_of_parts
  · apply Number.magnitude_eq_of_holds hx hy (Number.Decimal.worth_nonneg _)
    · exact Number.holds_shortest .toEven x
    · rw [hworth]
      exact Number.holds_shortest .toEven y
  · rw [← Number.Decimal.negative_numeral x.isNegative (shortest .toEven x),
      ← Number.Decimal.negative_numeral y.isNegative (shortest .toEven y)]
    exact congrArg (·.negative) h

end Wire

/-! ## Records -/

/-- The values of one text: a gauge that is no number is written like any other. -/
def Value.Alike (v w : Value) : Prop := v = w ∨ v.isFinite = false ∧ w.isFinite = false

/-- The records of one text. -/
structure Record.Alike (r s : Record) : Prop where
  name : r.name = s.name
  value : r.value.Alike s.value

namespace Value

theorem Alike.eq_of_isFinite {v w : Value} (h : v.Alike w) (hv : v.isFinite = true) : v = w := by
  rcases h with heq | ⟨hnone, -⟩
  · exact heq
  · rw [hv] at hnone
    cases hnone

/-- Only a gauge can be no number. -/
theorem exists_gauge_of_not_isFinite {v : Value} (h : v.isFinite = false) :
    ∃ x, v = gauge x ∧ ¬x.isFinite = true := by
  cases v with
  | counter d => cases h
  | gauge x => exact ⟨x, rfl, ne_true_of_eq_false h⟩

theorem kind_eq_of_wireKey {v w : Value} (h : v.wireKey = w.wireKey) : v.kind = w.kind := by
  cases v <;> cases w <;> simp_all [wireKey, kind]

theorem Alike.kind {v w : Value} (h : v.Alike w) : v.kind = w.kind := by
  rcases h with rfl | ⟨hv, hw⟩
  · rfl
  · obtain ⟨x, rfl, -⟩ := exists_gauge_of_not_isFinite hv
    obtain ⟨y, rfl, -⟩ := exists_gauge_of_not_isFinite hw
    rfl

theorem Alike.wireKey {v w : Value} (h : v.Alike w) : v.wireKey = w.wireKey := by
  rcases h with rfl | ⟨hv, hw⟩
  · rfl
  · obtain ⟨x, rfl, -⟩ := exists_gauge_of_not_isFinite hv
    obtain ⟨y, rfl, -⟩ := exists_gauge_of_not_isFinite hw
    rfl

theorem Alike.wireChars {v w : Value} (h : v.Alike w) : v.wireChars = w.wireChars := by
  rcases h with rfl | ⟨hv, hw⟩
  · rfl
  · obtain ⟨x, rfl, hx⟩ := exists_gauge_of_not_isFinite hv
    obtain ⟨y, rfl, hy⟩ := exists_gauge_of_not_isFinite hw
    exact (if_neg hx).trans (if_neg hy).symm

/-- A value is told by its kind and its token. -/
theorem alike_of_token {v w : Value} (hkind : v.kind = w.kind) (h : v.token = w.token) :
    v.Alike w := by
  cases v with
  | counter d =>
    cases w with
    | counter e =>
      left
      rw [Wire.integerNumeral_inj (Token.number.inj h)]
    | gauge y => cases hkind
  | gauge x =>
    cases w with
    | counter e => cases hkind
    | gauge y =>
      simp only [token] at h
      by_cases hx : x.isFinite = true
      · by_cases hy : y.isFinite = true
        · left
          rw [if_pos hx, if_pos hy] at h
          rw [Wire.gaugeNumeral_inj hx hy (Token.number.inj h)]
        · rw [if_pos hx, if_neg hy] at h
          cases h
      · by_cases hy : y.isFinite = true
        · rw [if_neg hx, if_pos hy] at h
          cases h
        · right
          exact ⟨Bool.eq_false_of_not_eq_true hx, Bool.eq_false_of_not_eq_true hy⟩

end Value

namespace Record

theorem Alike.wireChars {r s : Record} (h : r.Alike s) : r.wireChars = s.wireChars := by
  unfold Record.wireChars
  rw [h.name, show r.kind = s.kind from h.value.kind, h.value.wireKey, h.value.wireChars]

/-- The name is whatever its literal is read as, also when it looks like another record. -/
theorem alike_of_tokens {r s : Record} (h : r.tokens r.value.token = s.tokens s.value.token) :
    r.Alike s := by
  unfold tokens at h
  simp only [List.cons.injEq, Token.text.injEq, true_and, and_true] at h
  obtain ⟨hname, -, hkey, htoken⟩ := h
  have hunbody {s t : String} (h : Json.Literal.body s.toList = Json.Literal.body t.toList) :
      s = t := by
    have hread := Json.Literal.string?_body s
    rw [h, Json.Literal.string?_body] at hread
    exact (Option.some.inj hread).symm
  exact ⟨hunbody hname, Value.alike_of_token (Value.kind_eq_of_wireKey (hunbody hkey)) htoken⟩

end Record

/-! ## Batches -/

namespace Wire

/-- What stands behind a record: nothing, or a comma and more records. -/
def behind : Batch → List Token
  | [] => []
  | r :: rs => .comma :: separated (r :: rs)

theorem separated_cons (r : Record) (rs : Batch) :
    separated (r :: rs) = r.tokens r.value.token ++ behind rs := by
  cases rs with
  | nil => exact (List.append_nil _).symm
  | cons s ss => rfl

theorem separated_cons_ne_nil (r : Record) (rs : Batch) : separated (r :: rs) ≠ [] := by
  rw [separated_cons]
  exact List.append_ne_nil_of_left_ne_nil (List.cons_ne_nil _ _) _

theorem separated_of_behind {rs ss : Batch} (h : behind rs = behind ss) :
    separated rs = separated ss := by
  cases rs with
  | nil =>
    cases ss with
    | nil => rfl
    | cons s ss => cases h
  | cons r rs =>
    cases ss with
    | nil => cases h
    | cons s ss => exact (List.cons.inj h).2

theorem alike_of_separated {b c : Batch} (h : separated b = separated c) :
    List.Forall₂ Record.Alike b c := by
  induction b generalizing c with
  | nil =>
    cases c with
    | nil => exact .nil
    | cons s ss => exact absurd h.symm (separated_cons_ne_nil s ss)
  | cons r rs ih =>
    cases c with
    | nil => exact absurd h (separated_cons_ne_nil r rs)
    | cons s ss =>
      rw [separated_cons, separated_cons] at h
      obtain ⟨hfirst, hrest⟩ := List.append_inj h rfl
      exact .cons (Record.alike_of_tokens hfirst) (ih (separated_of_behind hrest))

theorem map_wireChars_of_alike {b c : Batch} (h : List.Forall₂ Record.Alike b c) :
    b.map Record.wireChars = c.map Record.wireChars := by
  induction h with
  | nil => rfl
  | cons hfirst _ ih => rw [List.map_cons, List.map_cons, hfirst.wireChars, ih]

/-- The batches of one text are alike record by record, and there are no others. -/
theorem encodeBatch_eq_iff_alike {b c : Batch} :
    encodeBatch b = encodeBatch c ↔ List.Forall₂ Record.Alike b c := by
  constructor
  · intro h
    have hscan : Json.scan (encodeBatch b) = Json.scan (encodeBatch c) := by rw [h]
    rw [scan_encodeBatch, scan_encodeBatch] at hscan
    unfold Json.listOf at hscan
    rw [← separated_eq, ← separated_eq] at hscan
    exact alike_of_separated (List.append_cancel_right (List.cons.inj hscan).2)
  · intro h
    unfold encodeBatch batchChars
    rw [map_wireChars_of_alike h]

theorem eq_of_alike {b c : Batch} (h : List.Forall₂ Record.Alike b c)
    (hb : ∀ r ∈ b, r.isFinite = true) : b = c := by
  induction h with
  | nil => rfl
  | @cons r s rs ss hfirst _ ih =>
    obtain ⟨hr, hrs⟩ := List.forall_mem_cons.1 hb
    obtain ⟨name, v⟩ := r
    obtain ⟨name', w⟩ := s
    obtain rfl : name = name' := hfirst.name
    obtain rfl : v = w := hfirst.value.eq_of_isFinite hr
    rw [ih hrs]

/-- A batch whose gauges are numbers is told by its text. Any batch of the same text, whatever its
own gauges, is as long and has in every place the same name, the same kind, and the same delta or
the same 64 bits. -/
theorem encodeBatch_eq_iff {b : Batch} (hb : ∀ r ∈ b, r.isFinite = true) (b' : Batch) :
    encodeBatch b = encodeBatch b' ↔ b.length = b'.length ∧
      ∀ (i : ℕ) (hi : i < b.length) (hi' : i < b'.length),
        b[i].name = b'[i].name ∧ b[i].kind = b'[i].kind ∧
          (∀ d, b[i].value = .counter d ↔ b'[i].value = .counter d) ∧
          ∀ bits, b[i].value = .gauge ⟨bits⟩ ↔ b'[i].value = .gauge ⟨bits⟩ := by
  constructor
  · intro h
    obtain rfl := eq_of_alike (encodeBatch_eq_iff_alike.1 h) hb
    exact ⟨rfl, fun i hi hi' => ⟨rfl, rfl, fun d => Iff.rfl, fun bits => Iff.rfl⟩⟩
  · rintro ⟨hlength, hplace⟩
    suffices heq : b = b' by rw [heq]
    apply List.ext_getElem hlength
    intro i hi hi'
    obtain ⟨hname, -, hdelta, hbits⟩ := hplace i hi hi'
    have hvalue : b[i].value = b'[i].value := by
      cases hv : b[i].value with
      | counter d => exact ((hdelta d).1 hv).symm
      | gauge x => exact ((hbits x.bits).1 hv).symm
    calc b[i] = ⟨b[i].name, b[i].value⟩ := rfl
      _ = ⟨b'[i].name, b'[i].value⟩ := by rw [hname, hvalue]

/-- The two zeros have two texts, and a name that looks like the end of one record and the beginning
of the next does not make two records of one. -/
theorem encodeBatch_ne_zeros_and_quotes :
    ((∀ r ∈ [Record.gauge "load" ⟨0⟩], r.isFinite = true) ∧
      encodeBatch [.gauge "load" ⟨0⟩] ≠ encodeBatch [.gauge "load" ⟨0x8000000000000000⟩]) ∧
    (∀ r ∈ [Record.counter "a\",\"type\":\"counter\",\"delta\":1\x7d,\x7b\"id\":\"b" 1],
        r.isFinite = true) ∧
      encodeBatch [.counter "a\",\"type\":\"counter\",\"delta\":1\x7d,\x7b\"id\":\"b" 1] ≠
        encodeBatch [.counter "a" 1, .counter "b" 1] := by
  refine ⟨⟨by decide, ?_⟩, by decide, ?_⟩
  · intro h
    obtain ⟨-, hplace⟩ := (encodeBatch_eq_iff (by decide) _).1 h
    obtain ⟨-, -, -, hbits⟩ := hplace 0 (by decide) (by decide)
    exact absurd ((hbits 0).1 rfl) (by decide)
  · intro h
    exact absurd ((encodeBatch_eq_iff (by decide) _).1 h).1 (by decide)

end Wire

end Telemetry
