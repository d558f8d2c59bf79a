/-
A batch on its way over the wire. The reader takes the records in their order, each by itself, and
stops at the first one that it cannot use: a gauge that is no number has been written as `null`,
and `null` is no value.
-/
import Telemetry.Proofs.Wire.Gauge
import Telemetry.Proofs.Wire.Sequence

namespace Telemetry

open Json (Token scanFrom)
open Number (Numeral Reading)
open Text.Utf8 (Octets encode)

/-! ## Integers -/

namespace Number

/-- The numeral that an integer is written as. -/
def integerNumeral (i : ℤ) : Numeral := ⟨i < 0, digitRow i.natAbs, none, none⟩

theorem intText_eq (i : ℤ) : (intText i).toList = (integerNumeral i).chars := by
  unfold intText natText integerNumeral Numeral.chars
  by_cases h : i < 0
  · simp [h, digitChars_eq, fractionChars, powerChars]
  · simp [h, digitChars_eq, fractionChars, powerChars]

theorem wellFormed_integerNumeral (i : ℤ) : (integerNumeral i).WellFormed := by
  refine ⟨isDigits_digitRow _, ?_, by simp [integerNumeral], by simp [integerNumeral]⟩
  intro hlong
  obtain hzero | hpos := Nat.eq_zero_or_pos i.natAbs
  · simp [integerNumeral, hzero, digitRow] at hlong
  · exact head_digitRow hpos

end Number

namespace Wire

open Number (integerNumeral)

/-- Both limits of the word are read as integers: the lower one has no positive counterpart, but its
digits still fit. -/
theorem reading?_integerNumeral (d : Int64) :
    ∃ r, (integerNumeral d.toInt).reading? = some r ∧ integerOf r = .ok d := by
  refine integerOf_reading?.2 ⟨⟨rfl, rfl, ?_⟩, ?_⟩
  · simp only [integerNumeral, decide_eq_true_eq, Number.digitsValue_digitRow]
    omega
  · simp only [signedValue, integerNumeral, decide_eq_true_eq, Number.digitsValue_digitRow]
    split <;> omega

end Wire

/-! ## One record -/

/-- The token that a value is written as. -/
def Value.token : Value → Token
  | .counter d => .number (Number.integerNumeral d.toInt)
  | .gauge x => if x.isFinite then .number (Wire.gaugeNumeral x) else .null

theorem Json.scanFrom_null {acc : List Token} {rest : Octets} :
    scanFrom acc (encode "null".toList ++ rest) = scanFrom (.null :: acc) rest :=
  Json.scanFrom_read rfl rfl

theorem Value.scanFrom_wireChars (v : Value) (acc : List Token) (rest : Octets) :
    scanFrom acc (encode v.wireChars ++ 125 :: rest) = scanFrom (v.token :: acc) (125 :: rest) := by
  cases v with
  | counter d =>
    have hends : Number.Ends (125 :: rest) := by
      intro b hb
      obtain rfl : 125 = b := Option.some.inj hb
      decide
    have htext : (Value.counter d).wireChars = (Number.integerNumeral d.toInt).chars :=
      Number.intText_eq _
    rw [htext]
    exact Json.scanFrom_numeral (Number.wellFormed_integerNumeral _) hends
  | gauge x =>
    by_cases hx : x.isFinite = true
    · rw [show (Value.gauge x).token = .number (Wire.gaugeNumeral x) from if_pos hx]
      exact Wire.scanFrom_gauge hx acc rest
    · rw [show (Value.gauge x).token = .null from if_neg hx,
        show (Value.gauge x).wireChars = "null".toList from if_neg hx]
      exact Json.scanFrom_null

namespace Record

/-- The record that is read from the text of a finite one. -/
def returned (r : Record) : Record :=
  match r.value with
  | .counter _ => r
  | .gauge x => Record.gauge r.name x.returned

/-- What reading a record's text comes to. -/
def reread (r : Record) : Except Wire.Fault Record :=
  if r.isFinite then .ok r.returned else .error (.complaint (.valueField r.name .gauge))

end Record

namespace Wire

/-- What has been read of a record at the end of its object. -/
def drafted (r : Record) : Draft :=
  match r.value with
  | .counter d => { named r with delta := some (some d) }
  | .gauge x => { named r with value := some (if x.isFinite then some x.returned else none) }

theorem readField_token (r : Record) (rest : List Token) :
    (named r).readField (valueField r.kind) (r.value.token :: .mapClose :: rest) =
      .ok (drafted r, .mapClose :: rest) := by
  obtain ⟨name, v⟩ := r
  cases v with
  | counter d =>
    obtain ⟨n, hread, hint⟩ := reading?_integerNumeral d
    simp [Record.kind, Value.kind, valueField, Value.token, Draft.readField, readDelta, hread, hint,
      drafted, Except.map]
  | gauge x =>
    by_cases hx : x.isFinite = true
    · simp [Record.kind, Value.kind, valueField, Value.token, Draft.readField, readValue, hx,
        reading?_gaugeNumeral hx, drafted, Except.map, Reading.toBinary64]
    · simp [Record.kind, Value.kind, valueField, Value.token, Draft.readField, readValue, hx,
        drafted, Except.map]

theorem record_drafted (r : Record) : (drafted r).record = r.reread := by
  obtain ⟨name, v⟩ := r
  cases v with
  | counter d => rfl
  | gauge x =>
    unfold drafted Record.reread Record.isFinite Value.isFinite
    by_cases hx : x.isFinite = true
    · simp only [hx, if_true]
      rfl
    · simp only [hx]
      rfl

theorem readRecord_tokens (r : Record) (rest : List Token) :
    readRecord (r.tokens r.value.token ++ rest) = r.reread.map fun s => (s, rest) := by
  unfold readRecord
  rw [readDraft_tokens rest (readField_token r rest)]
  exact congrArg (Except.map fun s => (s, rest)) (record_drafted r)

/-! ## The whole batch -/

/-- The tokens of a batch between its brackets. -/
def separated : Batch → List Token
  | [] => []
  | [r] => r.tokens r.value.token
  | r :: rs => r.tokens r.value.token ++ .comma :: separated rs

theorem scanFrom_separated (b : Batch) (acc : List Token) (rest : Octets) :
    scanFrom acc (encode (commaSeparated (b.map Record.wireChars)) ++ rest) =
      scanFrom ((separated b).reverse ++ acc) rest := by
  induction b generalizing acc with
  | nil => rfl
  | cons r rs ih =>
    have hrecord (rest : Octets) : scanFrom acc (encode r.wireChars ++ rest) =
        scanFrom ((r.tokens r.value.token).reverse ++ acc) rest :=
      r.scanFrom_wireChars acc rest fun acc => r.value.scanFrom_wireChars acc rest
    cases rs with
    | nil => exact hrecord rest
    | cons s ss =>
      have hmore : encode (commaSeparated ((r :: s :: ss).map Record.wireChars)) ++ rest =
          encode r.wireChars ++ 44 :: (encode (commaSeparated ((s :: ss).map Record.wireChars)) ++
            rest) := by
        rw [List.map_cons, List.map_cons, commaSeparated, Number.encode_append, List.append_assoc,
          Number.encode_cons]
        · rfl
        · simp
      have htokens : separated (r :: s :: ss) =
          r.tokens r.value.token ++ .comma :: separated (s :: ss) := rfl
      rw [hmore, hrecord, Json.scanFrom_comma, ih, htokens]
      congr 1
      simp

theorem separated_eq (b : Batch) :
    separated b = [.comma].intercalate (b.map fun r => r.tokens r.value.token) := by
  induction b with
  | nil => rfl
  | cons r rs ih =>
    cases rs with
    | nil => simp [separated]
    | cons s ss => simp [separated, ih]

theorem scan_encodeBatch (b : Batch) :
    Json.scan (encodeBatch b) = Json.listOf (b.map fun r => r.tokens r.value.token) := by
  have hchars : encodeBatch b =
      91 :: (encode (commaSeparated (b.map Record.wireChars)) ++ [93]) := by
    unfold encodeBatch batchChars
    rw [List.cons_append, Number.encode_cons, Number.encode_append]
    rfl
  unfold Json.scan
  rw [hchars, Json.scanFrom_listOpen, scanFrom_separated, Json.scanFrom_listClose,
    Json.scanFrom_nil, separated_eq]
  simp [Json.listOf]

/-- A record's object is a value. -/
theorem isValue_tokens (r : Record) : Json.IsValue (r.tokens r.value.token) := by
  have hvalue : Json.IsValue [r.value.token] := by
    cases r.value with
    | counter d => exact .number _
    | gauge x =>
      by_cases hx : x.isFinite = true
      · rw [show (Value.gauge x).token = .number (gaugeNumeral x) from if_pos hx]
        exact .number _
      · rw [show (Value.gauge x).token = .null from if_neg hx]
        exact .null
  have hmembers : ∀ m ∈ [Json.Member.mk (Json.Literal.body "id".toList)
        [.text (Json.Literal.body r.name.toList)],
      ⟨Json.Literal.body "type".toList, [.text (Json.Literal.body r.kind.word.toList)]⟩,
      ⟨Json.Literal.body r.value.wireKey.toList, [r.value.token]⟩], Json.IsValue m.value := by
    simp only [List.forall_mem_cons]
    exact ⟨.text _, .text _, hvalue, List.forall_mem_nil _⟩
  exact .map hmembers

/-- A batch that is written and read again comes to what its records come to, in their order. -/
theorem decodeBatch_encodeBatch (b : Batch) :
    decodeBatch (encodeBatch b) = b.mapM Record.reread := by
  have hvalues : ∀ v ∈ b.map fun r => r.tokens r.value.token, Json.IsValue v :=
    List.forall_mem_map.2 fun r _ => isValue_tokens r
  have hrecord (r : Record) : complete (readRecord (r.tokens r.value.token)) = r.reread :=
    complete_read (readRecord_tokens r)
  have hread := readBatch_listOf hvalues []
  rw [List.append_nil, List.mapM_map] at hread
  unfold decodeBatch
  rw [scan_encodeBatch, hread, complete_map]
  exact congrArg (b.mapM ·) (funext hrecord)

/-- A record as it comes back: everything but the last bits of a gauge. -/
structure Survives (r s : Record) : Prop where
  name : s.name = r.name
  kind : s.kind = r.kind
  delta : ∀ d, r.value = .counter d → s.value = .counter d
  finite : s.isFinite = true

theorem survives_returned {r : Record} (h : r.isFinite = true) : Survives r r.returned := by
  obtain ⟨name, v⟩ := r
  cases v with
  | counter d => exact ⟨rfl, rfl, fun _ hd => hd, rfl⟩
  | gauge x =>
    have hx := (Number.Binary64.returned_parts h).1
    exact ⟨rfl, rfl, fun _ hd => Value.noConfusion hd, hx⟩

theorem mapM_reread_of_finite {b : Batch} (h : ∀ r ∈ b, r.isFinite = true) :
    b.mapM Record.reread = .ok (b.map Record.returned) := by
  rw [mapM_eq_ok, List.forall₂_map_right_iff, List.forall₂_same]
  exact fun r hr => if_pos (h r hr)

theorem mapM_reread_of_first {front back : Batch} {r : Record}
    (hfront : ∀ q ∈ front, q.isFinite = true) (h : r.isFinite = false) :
    (front ++ r :: back).mapM Record.reread = .error (.complaint (.valueField r.name .gauge)) := by
  refine mapM_of_first_error (fun q hq => ⟨q.returned, if_pos (hfront q hq)⟩) (if_neg ?_)
  rw [h]
  exact Bool.false_ne_true

theorem message_gauge (name : String) : (Complaint.valueField name .gauge).message =
    "metric '" ++ name ++ "' of type gauge must carry exactly its own value field" := by
  have hword : "' of type " ++ Kind.gauge.word ++ " must carry exactly its own value field" =
      "' of type gauge must carry exactly its own value field" := by decide
  unfold Complaint.message
  simp only
  rw [← hword]
  simp only [String.append_assoc]

/-- A batch is read back exactly when all its gauges are numbers: record by record with the same
name, the same kind and the same delta. Otherwise the complaint is about the first gauge that is
none. -/
theorem batch_survives_iff (b : Batch) :
    ((∃ c, decodeBatch (encodeBatch b) = .ok c) ↔ ∀ r ∈ b, r.isFinite = true) ∧
      ((∃ c, decodeBatch (encodeBatch b) = .ok c ∧ c.length = b.length ∧
          List.Forall₂ Survives b c) ∨
        ∃ front r back, b = front ++ r :: back ∧ (∀ q ∈ front, q.isFinite = true) ∧
          r.isFinite = false ∧ r.kind = .gauge ∧
          decodeBatch (encodeBatch b) = .error (.complaint (.valueField r.name .gauge)) ∧
          (Complaint.valueField r.name .gauge).message = "metric '" ++ r.name ++
            "' of type gauge must carry exactly its own value field") := by
  rw [decodeBatch_encodeBatch]
  by_cases hall : ∀ r ∈ b, r.isFinite = true
  · have hread := mapM_reread_of_finite hall
    refine ⟨⟨fun _ => hall, fun _ => ⟨_, hread⟩⟩, Or.inl ⟨_, hread, ?_, ?_⟩⟩
    · exact List.length_map _
    · rw [List.forall₂_map_right_iff, List.forall₂_same]
      intro r hr
      exact survives_returned (hall r hr)
  · obtain ⟨r, front, back, hb, hr, hfront⟩ : ∃ r front back, b = front ++ r :: back ∧
        r.isFinite = false ∧ ∀ q ∈ front, q.isFinite = true := by
      obtain ⟨r, hfirst⟩ : ∃ r, b.find? (fun r => !r.isFinite) = some r := by
        rw [← Option.isSome_iff_exists, List.find?_isSome]
        push Not at hall
        simpa using hall
      obtain ⟨hr, front, back, hb, hfront⟩ := List.find?_eq_some_iff_append.1 hfirst
      exact ⟨r, front, back, hb, by simpa using hr, by simpa using hfront⟩
    have hread : b.mapM Record.reread = .error (.complaint (.valueField r.name .gauge)) := by
      rw [hb]
      exact mapM_reread_of_first hfront hr
    have hkind : r.kind = .gauge := by
      obtain ⟨name, v⟩ := r
      cases v with
      | counter d => exact Bool.noConfusion hr
      | gauge x => rfl
    refine ⟨⟨?_, fun h => absurd h hall⟩,
      Or.inr ⟨front, r, back, hb, hfront, hr, hkind, hread, message_gauge r.name⟩⟩
    rintro ⟨c, hc⟩
    rw [hread] at hc
    cases hc

end Wire

end Telemetry
