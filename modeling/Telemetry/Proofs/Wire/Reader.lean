/-
The readers of a record's fields, on a whole value. Each takes exactly the value, and what it gives
does not depend on what is behind it; each gives a result exactly when the value says what the field
asks for. The four fields are treated as one family: what a field holds, which values say so, and
where a draft keeps it.
-/
import Telemetry.Wire.Decode
import Telemetry.Proofs.Json.Grammar

namespace Telemetry.Wire

open Json (Token Member IsValue listOf mapOf)
open Json.Literal (string?)
open Number (Binary64 Numeral digitsValue)
open Text.Utf8 (Octets)

variable {v : List Token}

/-! ## Readers that take one value -/

section Reads

variable {α : Type} {read : List Token → Except Fault (α × List Token)} {means : α → List Token → Prop}

theorem bind_eq_ok {β : Type} {result : Except Fault α} {f : α → Except Fault β} {b : β} :
    result.bind f = .ok b ↔ ∃ a, result = .ok a ∧ f a = .ok b := by
  cases result <;> simp [Except.bind]

theorem complete_map (result : Except Fault α) :
    complete (result.map fun a => (a, [])) = result := by
  cases result <;> rfl

theorem complete_read {result : Except Fault α}
    (h : ∀ rest, read (v ++ rest) = result.map fun a => (a, rest)) : complete (read v) = result := by
  have halone := h []
  rw [List.append_nil] at halone
  rw [halone, complete_map]

/-- What a reader makes of a value with anything behind it is what it makes of the value alone. -/
theorem read_append {result : Except Fault α}
    (h : ∀ rest, read (v ++ rest) = result.map fun a => (a, rest)) (rest : List Token) :
    read (v ++ rest) = (complete (read v)).map fun a => (a, rest) := by
  rw [h rest, complete_read h]

/-- The reader takes exactly this value, whatever is behind it, and gives what the value means. -/
structure Reads (read : List Token → Except Fault (α × List Token)) (means : α → List Token → Prop)
    (v : List Token) : Prop where
  takes : ∀ rest, read (v ++ rest) = (complete (read v)).map fun a => (a, rest)
  ok_iff : ∀ a, complete (read v) = .ok a ↔ means a v

theorem Reads.of_result {result : Except Fault α}
    (h : ∀ rest, read (v ++ rest) = result.map fun a => (a, rest))
    (hmeans : ∀ a, result = .ok a ↔ means a v) : Reads read means v := by
  refine ⟨read_append h, fun a => ?_⟩
  rw [complete_read h]
  exact hmeans a

theorem Reads.accept (a : α) (h : ∀ rest, read (v ++ rest) = .ok (a, rest))
    (hmeans : ∀ b, means b v ↔ a = b) : Reads read means v := by
  have hread : ∀ rest, read (v ++ rest) = (Except.ok a).map fun a => (a, rest) := h
  refine .of_result hread fun b => ?_
  rw [hmeans b, Except.ok.injEq]

theorem Reads.refuse (e : Fault) (h : ∀ rest, read (v ++ rest) = .error e)
    (hmeans : ∀ a, ¬means a v) : Reads read means v := by
  have hread : ∀ rest, read (v ++ rest) = (Except.error e).map fun a => (a, rest) := h
  refine .of_result hread fun a => ?_
  simp [hmeans a]

/-- A complaint about a value tells nothing but its first token. -/
theorem mismatch_append {expected : Expected} (h : IsValue v) (rest : List Token) :
    mismatch expected (v ++ rest) = mismatch expected v := by
  obtain ⟨t, ts, rfl, -⟩ := h.first
  cases t <;> rfl

theorem Reads.mismatch {expected : Expected} (hv : IsValue v)
    (h : ∀ rest, read (v ++ rest) = .error (mismatch expected (v ++ rest)))
    (hmeans : ∀ a, ¬means a v) : Reads read means v := by
  refine .refuse (Wire.mismatch expected v) (fun rest => ?_) hmeans
  rw [h rest, mismatch_append hv]

end Reads

/-! ## Texts and kinds -/

/-- A value that is the given text. -/
def IsText (s : String) (v : List Token) : Prop := ∃ raw, v = [.text raw] ∧ string? raw = some s

/-- A value that names a kind: the name, or a map with the name for its only key and `null` in it. -/
def NamesKind (k : Kind) (v : List Token) : Prop :=
  IsText k.word v ∨ ∃ raw, v = mapOf [⟨raw, [.null]⟩] ∧ string? raw = some k.word

theorem isText_iff {raw : Octets} {s : String} : IsText s [.text raw] ↔ string? raw = some s := by
  simp [IsText]

theorem not_isText {t : Token} {ts : List Token} (h : ∀ raw, t ≠ .text raw) (s : String) :
    ¬IsText s (t :: ts) := by
  rintro ⟨raw, hv, -⟩
  exact h raw (List.cons.inj hv).1

theorem readString_reads (h : IsValue v) (expected : Expected) :
    Reads (readString expected) IsText v := by
  have hv := h
  cases h with
  | text raw =>
    cases hs : string? raw with
    | none =>
      refine .refuse .malformed (fun rest => ?_) fun s => ?_
      · simp [readString, hs]
      · simp [isText_iff, hs]
    | some t =>
      refine .accept t (fun rest => ?_) fun s => ?_
      · simp [readString, hs]
      · simp [isText_iff, hs]
  | _ => exact .mismatch hv (fun _ => rfl) (not_isText fun _ => Token.noConfusion)

theorem kindNamed_eq_ok {word : String} {k : Kind} : kindNamed word = .ok k ↔ word = k.word := by
  have hne : Kind.gauge.word ≠ Kind.counter.word := by decide
  unfold kindNamed
  by_cases hcounter : word = Kind.counter.word
  · subst hcounter
    cases k <;> simp [hne.symm]
  · by_cases hgauge : word = Kind.gauge.word
    · subst hgauge
      cases k <;> simp [hne]
    · cases k <;> simp [hcounter, hgauge]

theorem kindOf_eq_ok {raw : Octets} {k : Kind} : kindOf raw = .ok k ↔ string? raw = some k.word := by
  unfold kindOf
  cases string? raw with
  | none => simp
  | some word => simp [kindNamed_eq_ok]

/-! ### A kind that is named by a map -/

theorem mapOf_single (m : Member) (rest : List Token) :
    mapOf [m] ++ rest = .mapOpen :: (m.tokens ++ .mapClose :: rest) := by
  simp [mapOf]

theorem mapOf_cons (m n : Member) (ms : List Member) (rest : List Token) :
    mapOf (m :: n :: ms) ++ rest =
      .mapOpen :: (m.tokens ++ .comma ::
        ([.comma].intercalate ((n :: ms).map Member.tokens) ++ .mapClose :: rest)) := by
  simp [mapOf]

theorem readKind_named {raw : Octets} {k : Kind} (h : kindOf raw = .ok k) {w : List Token}
    (hw : IsValue w) (hnull : w ≠ [.null]) (rest : List Token) :
    readKind (.mapOpen :: .text raw :: .colon :: (w ++ rest)) = .error (mismatch .nothing w) := by
  rw [← mismatch_append hw rest]
  unfold readKind
  simp only [h]
  cases hw with
  | null => exact absurd rfl hnull
  | _ => rfl

/-- A map that is a kind has one member. -/
theorem eq_of_mapOf_eq {m : Member} {ms : List Member} (hm : IsValue m.value) {raw : Octets}
    (h : mapOf (m :: ms) = mapOf [⟨raw, [.null]⟩]) : m.key = raw ∧ m.value = [.null] ∧ ms = [] := by
  have hnull : ∀ {w rest rest' : List Token}, IsValue w → w ++ rest = .null :: rest' →
      w = [.null] ∧ rest = rest' := by
    intro w rest rest' hw heq
    cases hw with
    | null => exact ⟨rfl, (List.cons.inj heq).2⟩
    | _ => exact absurd (List.cons.inj heq).1 Token.noConfusion
  cases ms with
  | nil =>
    simp only [mapOf, List.map_cons, List.map_nil, List.intercalate_singleton, Member.tokens,
      List.cons_append, List.cons.injEq, Token.text.injEq, true_and] at h
    exact ⟨h.1, (hnull hm h.2).1, rfl⟩
  | cons n ms =>
    have happend := mapOf_cons m n ms []
    rw [List.append_nil, h] at happend
    simp only [mapOf, List.map_cons, List.map_nil, List.intercalate_singleton, Member.tokens,
      List.cons_append, List.cons.injEq, Token.text.injEq, true_and] at happend
    have hrest := (hnull hm happend.2.symm).2
    simp at hrest

theorem readKind_reads (h : IsValue v) : Reads readKind NamesKind v := by
  -- only a map can be a kind without being a text
  have hother {t : Token} {ts : List Token} (htext : ∀ raw, t ≠ .text raw) (hmap : t ≠ .mapOpen)
      (k : Kind) : ¬NamesKind k (t :: ts) := by
    rintro (hk | ⟨raw, hv, -⟩)
    · exact not_isText htext k.word hk
    · exact hmap (List.cons.inj hv).1
  cases h with
  | text raw =>
    have hnames (k : Kind) : NamesKind k [.text raw] ↔ kindOf raw = .ok k := by
      simp [NamesKind, isText_iff, kindOf_eq_ok, mapOf]
    have hread (rest : List Token) : readKind ([.text raw] ++ rest) =
      (kindOf raw).map fun k => (k, rest) := rfl
    cases hk : kindOf raw with
    | error e =>
      refine .refuse e (fun rest => ?_) fun k => ?_
      · rw [hread, hk]
        rfl
      · simp [hnames, hk]
    | ok k =>
      refine .accept k (fun rest => ?_) fun l => ?_
      · rw [hread, hk]
        rfl
      · simp [hnames, hk]
  | @map ms members =>
    cases ms with
    | nil =>
      refine .refuse .malformed (fun rest => rfl) fun k => ?_
      simp [NamesKind, IsText, mapOf, Member.tokens]
    | cons m ms =>
      have hm := members m List.mem_cons_self
      have hnames (k : Kind) : NamesKind k (mapOf (m :: ms)) ↔
          kindOf m.key = .ok k ∧ m.value = [.null] ∧ ms = [] := by
        rw [kindOf_eq_ok]
        constructor
        · rintro (hk | ⟨raw, hv, hraw⟩)
          · exact absurd hk (not_isText (fun _ => Token.noConfusion) _)
          · obtain ⟨rfl, hvalue, hms⟩ := eq_of_mapOf_eq hm hv
            exact ⟨hraw, hvalue, hms⟩
        · rintro ⟨hraw, hvalue, rfl⟩
          refine Or.inr ⟨m.key, ?_, hraw⟩
          rw [← hvalue]
      obtain ⟨behind, hmap⟩ : ∃ behind : List Token → List Token, ∀ rest, mapOf (m :: ms) ++ rest =
          .mapOpen :: .text m.key :: .colon :: (m.value ++ behind rest) := by
        cases ms with
        | nil => exact ⟨_, mapOf_single m⟩
        | cons n ms => exact ⟨_, mapOf_cons m n ms⟩
      cases hk : kindOf m.key with
      | error e =>
        refine .refuse e (fun rest => ?_) fun k => ?_
        · rw [hmap]
          unfold readKind
          simp only [hk]
        · simp [hnames, hk]
      | ok k =>
        by_cases hvalue : m.value = [.null]
        · cases ms with
          | nil =>
            refine .accept k (fun rest => ?_) fun l => ?_
            · rw [mapOf_single]
              unfold readKind Member.tokens
              simp only [List.cons_append, hk, hvalue, List.nil_append]
            · simp [hnames, hk, hvalue]
          | cons n ms =>
            refine .refuse .malformed (fun rest => ?_) fun l => ?_
            · rw [mapOf_cons]
              unfold readKind Member.tokens
              simp only [List.cons_append, hk, hvalue, List.nil_append]
            · simp [hnames]
        · refine .refuse (mismatch .nothing m.value) (fun rest => ?_) fun l => ?_
          · rw [hmap, readKind_named hk hm hvalue]
          · simp [hnames, hvalue]
  | _ =>
    exact .refuse .malformed (fun _ => rfl) (hother (fun _ => Token.noConfusion) Token.noConfusion)

/-! ## Numbers -/

/-- The integer that the digits of a numeral make with its sign. -/
def signedValue (n : Numeral) : ℤ := if n.negative then -digitsValue n.whole else digitsValue n.whole

/-- A numeral that is an integer and no other number: no point, no exponent part, and no minus in
front of a zero. -/
structure IntegerForm (n : Numeral) : Prop where
  no_fraction : n.fraction = none
  no_power : n.power = none
  no_negative_zero : ¬(n.negative = true ∧ digitsValue n.whole = 0)

/-- A value that is the given integer. -/
def IsInteger (i : Int64) (v : List Token) : Prop :=
  ∃ n : Numeral, v = [.number n] ∧ IntegerForm n ∧ i.toInt = signedValue n

/-- A value that is a number, read as the given double. -/
def IsNumber (x : Binary64) (v : List Token) : Prop :=
  ∃ n : Numeral, v = [.number n] ∧ n.reading?.map Number.Reading.toBinary64 = some x

/-- Numerals of another form are doubles, and so is a row of digits that is too long. -/
theorem integerOf_reading? {n : Numeral} {i : Int64} :
    (∃ r, n.reading? = some r ∧ integerOf r = .ok i) ↔ IntegerForm n ∧ i.toInt = signedValue n := by
  have hlow := i.le_toInt
  have hhigh := i.toInt_lt
  have hdouble (o : Option Binary64) :
      ¬∃ r, o.map Number.Reading.double = some r ∧ integerOf r = .ok i := by
    cases o <;> simp [integerOf]
  unfold Numeral.reading? signedValue
  by_cases hpart : n.fraction.isSome = true ∨ n.power.isSome = true
  · rw [if_pos hpart]
    refine iff_of_false (hdouble _) ?_
    rintro ⟨⟨hf, hp, -⟩, -⟩
    simp [hf, hp] at hpart
  have hform : IntegerForm n ↔ ¬(n.negative = true ∧ digitsValue n.whole = 0) := by
    have hnone : n.fraction = none ∧ n.power = none := by simpa using hpart
    exact ⟨fun h => h.no_negative_zero, fun h => ⟨hnone.1, hnone.2, h⟩⟩
  rw [if_neg hpart, hform]
  simp only
  generalize digitsValue n.whole = w
  by_cases hlarge : 0x10000000000000000 ≤ w
  · rw [if_pos hlarge]
    refine iff_of_false (hdouble _) ?_
    cases n.negative <;> simp <;> omega
  rw [if_neg hlarge]
  cases n.negative with
  | false =>
    have hsame : (UInt64.ofNat w).toNat = w := UInt64.toNat_ofNat_of_lt' (by
      have hsize : UInt64.size = 0x10000000000000000 := rfl
      omega)
    simp only [Bool.not_false, if_true, Option.some.injEq, exists_eq_left', integerOf, hsame,
      Bool.false_eq_true, false_and, not_false_eq_true, true_and, if_false]
    by_cases hfits : w < 0x8000000000000000
    · have hback : (Int64.ofNat w).toInt = w := Int64.toInt_ofNat_of_lt hfits
      rw [if_pos hfits, Except.ok.injEq, ← Int64.toInt_inj, hback, eq_comm]
    · rw [if_neg hfits]
      refine iff_of_false (by simp) ?_
      omega
  | true =>
    simp only [Bool.not_true, Bool.false_eq_true, if_false, if_true, true_and]
    by_cases hbad : w = 0 ∨ 0x8000000000000000 < w
    · rw [if_pos hbad]
      refine iff_of_false (hdouble (some _)) ?_
      omega
    · have hback : (Int64.ofInt (-w)).toInt = -w := Int64.toInt_ofInt_of_le (by omega) (by omega)
      rw [if_neg hbad]
      simp only [Option.some.injEq, exists_eq_left', integerOf, Except.ok.injEq]
      rw [← Int64.toInt_inj, hback, eq_comm]
      exact ⟨fun h => ⟨fun h0 => hbad (Or.inl h0), h⟩, fun h => h.2⟩

/-- What a value means when `null` stands for nothing. -/
def OrNull {α : Type} (means : α → List Token → Prop) : Option α → List Token → Prop
  | none, v => v = [.null]
  | some a, v => means a v

/-- A reader of numbers that takes `null` for nothing. -/
theorem reads_orNull {α : Type} {read : List Token → Except Fault (Option α × List Token)}
    {means : α → List Token → Prop} (expected : Expected) (worth : Numeral → Except Fault α)
    (hmeans : ∀ a v, means a v ↔ ∃ n, v = [.number n] ∧ worth n = .ok a)
    (hnull : ∀ rest, read (.null :: rest) = .ok (none, rest))
    (hnumber : ∀ n rest, read (.number n :: rest) = (worth n).map fun a => (some a, rest))
    (hother : ∀ t ts, t ≠ .null → (∀ n, t ≠ .number n) →
      read (t :: ts) = .error (mismatch expected (t :: ts)))
    (h : IsValue v) : Reads read (OrNull means) v := by
  have hnothing {t : Token} {ts : List Token} (ht : t ≠ .null) (hn : ∀ n, t ≠ .number n)
      (o : Option α) : ¬OrNull means o (t :: ts) := by
    cases o with
    | none => exact fun hv => ht (List.cons.inj hv).1
    | some a =>
      intro hv
      obtain ⟨n, hv, -⟩ := (hmeans a _).1 hv
      exact hn n (List.cons.inj hv).1
  have hv := h
  cases h with
  | null =>
    refine .accept none hnull fun o => ?_
    cases o <;> simp [OrNull, hmeans]
  | number n =>
    cases hn : worth n with
    | error e =>
      refine .refuse e (fun rest => ?_) fun o => ?_
      · refine (hnumber n rest).trans ?_
        rw [hn]
        rfl
      · cases o <;> simp [OrNull, hmeans, hn]
    | ok a =>
      refine .accept (some a) (fun rest => ?_) fun o => ?_
      · refine (hnumber n rest).trans ?_
        rw [hn]
        rfl
      · cases o <;> simp [OrNull, hmeans, hn]
  | _ =>
    exact .mismatch hv (fun _ => hother _ _ Token.noConfusion fun _ => Token.noConfusion)
      (hnothing Token.noConfusion fun _ => Token.noConfusion)

/-- What is made of the reading of a numeral, which has none when it is out of range. -/
def worthOf {α : Type} (make : Number.Reading → Except Fault α) (n : Numeral) : Except Fault α :=
  match n.reading? with
  | some r => make r
  | none => .error .malformed

theorem worthOf_eq_ok {α : Type} {make : Number.Reading → Except Fault α} {n : Numeral} {a : α} :
    worthOf make n = .ok a ↔ ∃ r, n.reading? = some r ∧ make r = .ok a := by
  unfold worthOf
  cases n.reading? <;> simp

theorem readDelta_reads (h : IsValue v) : Reads readDelta (OrNull IsInteger) v := by
  refine reads_orNull .integer (worthOf integerOf) (fun i v => ?_) (fun _ => rfl) (fun n rest => ?_)
    (fun t ts hnull hnumber => ?_) h
  · simp only [IsInteger, worthOf_eq_ok, integerOf_reading?]
  · simp only [readDelta, worthOf]
    cases n.reading? <;> rfl
  · cases t with
    | null => exact absurd rfl hnull
    | number n => exact absurd rfl (hnumber n)
    | _ => rfl

theorem readValue_reads (h : IsValue v) : Reads readValue (OrNull IsNumber) v := by
  refine reads_orNull .number (worthOf fun r => .ok r.toBinary64) (fun x v => ?_) (fun _ => rfl)
    (fun n rest => ?_) (fun t ts hnull hnumber => ?_) h
  · simp only [IsNumber, worthOf_eq_ok, Except.ok.injEq, Option.map_eq_some_iff]
  · simp only [readValue, worthOf]
    cases n.reading? <;> rfl
  · cases t with
    | null => exact absurd rfl hnull
    | number n => exact absurd rfl (hnumber n)
    | _ => rfl

/-! ## The four fields as one family -/

namespace Field

/-- What a field holds. -/
abbrev Content : Field → Type
  | id => String
  | type => Kind
  | delta => Option Int64
  | value => Option Binary64

/-- What a value means in a field. -/
def Means : (f : Field) → f.Content → List Token → Prop
  | id => IsText
  | type => NamesKind
  | delta => OrNull IsInteger
  | value => OrNull IsNumber

/-- The reader of a field. -/
def read : (f : Field) → List Token → Except Fault (f.Content × List Token)
  | id => readString .string
  | type => readKind
  | delta => readDelta
  | value => readValue

theorem reads (f : Field) (h : IsValue v) : Reads f.read f.Means v := by
  cases f with
  | id => exact readString_reads h .string
  | type => exact readKind_reads h
  | delta => exact readDelta_reads h
  | value => exact readValue_reads h

end Field

namespace Draft

/-- What has been read for a field. -/
def get (d : Draft) : (f : Field) → Option f.Content
  | .id => d.id
  | .type => d.kind
  | .delta => d.delta
  | .value => d.value

def set (d : Draft) : (f : Field) → f.Content → Draft
  | .id, s => { d with id := some s }
  | .type, k => { d with kind := some k }
  | .delta, i => { d with delta := some i }
  | .value, x => { d with value := some x }

variable {d e : Draft} {f g : Field}

@[simp] theorem get_empty (f : Field) : ({} : Draft).get f = none := by cases f <;> rfl

@[simp] theorem get_set_self (a : f.Content) : (d.set f a).get f = some a := by cases f <;> rfl

theorem get_set_of_ne (a : f.Content) (h : g ≠ f) : (d.set f a).get g = d.get g := by
  cases f <;> cases g <;> simp_all [get, set]

theorem has_eq (d : Draft) (f : Field) : d.has f = (d.get f).isSome := by cases f <;> rfl

theorem ext_get (h : ∀ f, d.get f = e.get f) : d = e := by
  obtain ⟨i, k, n, x⟩ := d
  obtain ⟨i', k', n', x'⟩ := e
  obtain rfl : i = i' := h .id
  obtain rfl : k = k' := h .type
  obtain rfl : n = n' := h .delta
  obtain rfl : x = x' := h .value
  rfl

theorem readField_eq (d : Draft) (f : Field) (ts : List Token) :
    d.readField f ts = (f.read ts).map fun p => (d.set f p.1, p.2) := by
  cases f <;> rfl

/-- Puts a value into a field. -/
def put (d : Draft) (f : Field) (v : List Token) : Except Fault Draft :=
  (complete (f.read v)).map (d.set f)

/-- A field takes its value from a whole value and leaves the rest. -/
theorem readField_append (d : Draft) (f : Field) (h : IsValue v) (rest : List Token) :
    d.readField f (v ++ rest) = (d.put f v).map fun e => (e, rest) := by
  unfold put
  rw [readField_eq, (f.reads h).takes rest]
  cases complete (f.read v) <;> rfl

theorem put_eq_ok (h : IsValue v) : d.put f v = .ok e ↔ ∃ a, f.Means a v ∧ e = d.set f a := by
  have hmeans := (f.reads h).ok_iff
  unfold put
  cases hread : complete (f.read v) with
  | error fault =>
    rw [hread] at hmeans
    simp only [Except.map, reduceCtorEq, false_iff, not_exists, not_and]
    intro a ha
    cases (hmeans a).2 ha
  | ok a =>
    rw [hread] at hmeans
    simp only [Except.map, Except.ok.injEq]
    constructor
    · rintro rfl
      exact ⟨a, (hmeans a).1 rfl, rfl⟩
    · rintro ⟨b, hb, rfl⟩
      rw [Except.ok.inj ((hmeans b).2 hb)]

end Draft

end Telemetry.Wire
