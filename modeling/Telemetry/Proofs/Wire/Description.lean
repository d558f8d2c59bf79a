/-
Records written as objects. Which record an object is depends neither on the order of its members nor
on members that mean nothing, although the reader takes them in their order and complains about the
first it cannot use. Main statement: `object_is_record_iff`.
-/
import Mathlib.Data.List.Perm.Basic
import Telemetry.Proofs.Wire.Members

namespace Telemetry.Wire

open Json (Token Member IsValue IsBlank Spelling)
open Json.Literal (string?)
open Text.Utf8 (Octets)

variable {ms ns : List Member} {d : Draft} {r : Record} {v : List Token}

/-! ## The record that is described -/

/-- A field without a value: it does not occur, or it is `null`. -/
def IsAbsent (vs : List (List Token)) : Prop := vs = [] ∨ vs = [[.null]]

/-- The value that the two value fields carry: one of them holds it and the other holds none. -/
def Carries (deltas values : List (List Token)) : Value → Prop
  | .counter i => (∃ v, deltas = [v] ∧ IsInteger i v) ∧ IsAbsent values
  | .gauge x => IsAbsent deltas ∧ ∃ v, values = [v] ∧ IsNumber x v

/-- The members of an object describe a record: name and kind occur exactly once, the value fields
at most once, and exactly the one of the record's kind has a value. -/
structure Describes (ms : List Member) (r : Record) : Prop where
  id : ∃ v, valuesOf .id ms = [v] ∧ IsText r.name v
  type : ∃ v, valuesOf .type ms = [v] ∧ NamesKind r.kind v
  value : Carries (valuesOf .delta ms) (valuesOf .value ms) r.value

section

variable {α : Type} {means : α → List Token → Prop} {vs : List (List Token)} {a : α}

theorem filled_once : Filled means none vs (some a) ↔ ∃ v, vs = [v] ∧ means a v := by
  simp [Filled]

theorem filled_join_some : (∃ o, Filled (OrNull means) none vs o ∧ o.join = some a) ↔
    ∃ v, vs = [v] ∧ means a v := by
  constructor
  · rintro ⟨o, ⟨-, rfl⟩ | ⟨v, b, rfl, -, hb, rfl⟩, ho⟩
    · cases ho
    · obtain rfl : b = some a := ho
      exact ⟨v, rfl, hb⟩
  · rintro ⟨v, rfl, ha⟩
    exact ⟨some (some a), Or.inr ⟨v, some a, rfl, rfl, ha, rfl⟩, rfl⟩

theorem filled_join_none : (∃ o, Filled (OrNull means) none vs o ∧ o.join = none) ↔ IsAbsent vs := by
  constructor
  · rintro ⟨o, ⟨rfl, rfl⟩ | ⟨v, b, rfl, -, hb, rfl⟩, ho⟩
    · exact Or.inl rfl
    · obtain rfl : b = none := ho
      exact Or.inr (congrArg (fun w => [w]) hb)
  · rintro (rfl | rfl)
    · exact ⟨none, Or.inl ⟨rfl, rfl⟩, rfl⟩
    · exact ⟨some none, Or.inr ⟨[.null], none, rfl, rfl, rfl, rfl⟩, rfl⟩

end

/-- A draft is a record when it has a name, a kind, and exactly the value field of that kind. -/
theorem Draft.record_eq_ok : d.record = .ok r ↔
    d.id = some r.name ∧ d.kind = some r.kind ∧ match r.value with
      | .counter i => d.delta.join = some i ∧ d.value.join = none
      | .gauge x => d.delta.join = none ∧ d.value.join = some x := by
  obtain ⟨name, value⟩ := r
  obtain ⟨id, kind, delta, gauge⟩ := d
  unfold Draft.record Record.kind
  simp only
  generalize delta.join = i
  generalize gauge.join = x
  cases id with
  | none => simp
  | some s =>
    cases kind with
    | none => simp
    | some k =>
      cases value <;> cases k <;> cases i <;> cases x <;>
        simp [Record.counter, Record.gauge, Value.kind]

/-- The drafts that the members can fill, made into records, are the records they describe. -/
theorem describes_iff : (∃ e, FilledBy {} ms e ∧ e.record = .ok r) ↔ Describes ms r := by
  have hfields {i k n x} : FilledBy {} ms ⟨i, k, n, x⟩ ↔
      Filled IsText none (valuesOf .id ms) i ∧ Filled NamesKind none (valuesOf .type ms) k ∧
        Filled (OrNull IsInteger) none (valuesOf .delta ms) n ∧
        Filled (OrNull IsNumber) none (valuesOf .value ms) x := by
    constructor
    · exact fun h => ⟨h .id, h .type, h .delta, h .value⟩
    · rintro ⟨hi, hk, hn, hx⟩ f
      cases f <;> assumption
  obtain ⟨name, value⟩ := r
  constructor
  · rintro ⟨⟨i, k, n, x⟩, hfilled, hrecord⟩
    obtain ⟨hi, hk, hn, hx⟩ := hfields.1 hfilled
    obtain ⟨rfl, rfl, hvalue⟩ := Draft.record_eq_ok.1 hrecord
    refine ⟨filled_once.1 hi, filled_once.1 hk, ?_⟩
    cases value with
    | counter j => exact ⟨filled_join_some.1 ⟨n, hn, hvalue.1⟩, filled_join_none.1 ⟨x, hx, hvalue.2⟩⟩
    | gauge y => exact ⟨filled_join_none.1 ⟨n, hn, hvalue.1⟩, filled_join_some.1 ⟨x, hx, hvalue.2⟩⟩
  · rintro ⟨hid, htype, hvalue⟩
    have hi := filled_once.2 hid
    have hk := filled_once.2 htype
    cases value with
    | counter j =>
      obtain ⟨n, hn, hj⟩ := filled_join_some.2 hvalue.1
      obtain ⟨x, hx, hnone⟩ := filled_join_none.2 hvalue.2
      exact ⟨⟨_, _, n, x⟩, hfields.2 ⟨hi, hk, hn, hx⟩, Draft.record_eq_ok.2 ⟨rfl, rfl, hj, hnone⟩⟩
    | gauge y =>
      obtain ⟨n, hn, hnone⟩ := filled_join_none.2 hvalue.1
      obtain ⟨x, hx, hy⟩ := filled_join_some.2 hvalue.2
      exact ⟨⟨_, _, n, x⟩, hfields.2 ⟨hi, hk, hn, hx⟩, Draft.record_eq_ok.2 ⟨rfl, rfl, hnone, hy⟩⟩

/-! ## Which members matter -/

theorem valuesOf_filter (f : Field) (ms : List Member) :
    valuesOf f (ms.filter isKnown) = valuesOf f ms := by
  unfold valuesOf
  rw [List.filter_filter]
  congr 1
  refine List.filter_congr fun m _ => ?_
  by_cases hf : string? m.key = some f.word
  · simp [hf, isKnown_iff.2 ⟨f, hf⟩]
  · simp [hf]

theorem valuesOf_perm (h : (ms.filter isKnown).Perm (ns.filter isKnown)) (f : Field) :
    (valuesOf f ms).Perm (valuesOf f ns) := by
  rw [← valuesOf_filter f ms, ← valuesOf_filter f ns]
  exact (h.filter _).map _

/-- Objects with the same known members in any order describe the same records. -/
theorem Describes.of_perm (h : (ms.filter isKnown).Perm (ns.filter isKnown)) (hr : Describes ms r) :
    Describes ns r := by
  have hone {f : Field} {v : List Token} (hv : valuesOf f ms = [v]) : valuesOf f ns = [v] := by
    have hperm := valuesOf_perm h f
    rw [hv] at hperm
    exact (List.singleton_perm.1 hperm).symm
  have hnone {f : Field} (hv : IsAbsent (valuesOf f ms)) : IsAbsent (valuesOf f ns) := by
    rcases hv with hv | hv
    · have hperm := valuesOf_perm h f
      rw [hv] at hperm
      exact Or.inl hperm.symm.eq_nil
    · exact Or.inr (hone hv)
  obtain ⟨name, value⟩ := r
  obtain ⟨⟨i, hi, hid⟩, ⟨k, hk, htype⟩, hvalue⟩ := hr
  refine ⟨⟨i, hone hi, hid⟩, ⟨k, hone hk, htype⟩, ?_⟩
  cases value with
  | counter j =>
    obtain ⟨⟨n, hn, hj⟩, hx⟩ := hvalue
    exact ⟨⟨n, hone hn, hj⟩, hnone hx⟩
  | gauge y =>
    obtain ⟨hn, x, hx, hy⟩ := hvalue
    exact ⟨hnone hn, x, hone hx, hy⟩

/-! ## Documents -/

/-- A text that is an object whose keys can all be read. -/
inductive IsObject : List Member → Octets → Prop where
  | mk {ms : List Member} {before x behind : Octets} (blank_before : IsBlank before)
    (inside : Spelling (.members ms) x) (blank_behind : IsBlank behind)
    (keys : ∀ m ∈ ms, (string? m.key).isSome) :
    IsObject ms (before ++ ((123 :: (x ++ [125])) ++ behind))

theorem decodeRecord_of_spelling {x : Octets} (h : Spelling (.padded v) x) :
    decodeRecord x = complete (readRecord v) := by
  unfold decodeRecord
  rw [h.scan_eq]

theorem IsObject.isValue {object : Octets} (h : IsObject ms object) : ∀ m ∈ ms, IsValue m.value := by
  obtain ⟨-, inside, -, -⟩ := h
  exact fun m hm => inside.isValue _ (List.mem_map_of_mem hm)

theorem IsObject.decodeRecord_eq {object : Octets} (h : IsObject ms object) :
    decodeRecord object = (ms.foldlM Draft.take {}).bind Draft.record := by
  have hread := readRecord_mapOf h.isValue []
  obtain ⟨blank_before, inside, blank_behind, -⟩ := h
  rw [List.append_nil] at hread
  rw [decodeRecord_of_spelling (.padded blank_before (.map inside) blank_behind), hread,
    complete_map]

theorem IsObject.decodeRecord_eq_ok {object : Octets} (h : IsObject ms object) :
    decodeRecord object = .ok r ↔ Describes ms r := by
  have hkeys : ∀ m ∈ ms, (string? m.key).isSome := by
    obtain ⟨-, -, -, keys⟩ := h
    exact keys
  rw [h.decodeRecord_eq, ← describes_iff, bind_eq_ok]
  simp only [foldlM_take_eq_ok h.isValue hkeys]

/-- An object is a record exactly when its members describe that record. So the order of the members
changes nothing, and neither do members that are no field, whatever is in them. -/
theorem object_is_record_iff {object : Octets} (h : IsObject ms object) :
    (∀ r, decodeRecord object = .ok r ↔ Describes ms r) ∧
      ∀ {ns : List Member} {other : Octets}, IsObject ns other →
        (ms.filter isKnown).Perm (ns.filter isKnown) →
        ∀ r, decodeRecord object = .ok r ↔ decodeRecord other = .ok r := by
  refine ⟨fun r => h.decodeRecord_eq_ok, ?_⟩
  intro ns other hother hperm r
  rw [h.decodeRecord_eq_ok, hother.decodeRecord_eq_ok]
  exact ⟨fun hr => hr.of_perm hperm, fun hr => hr.of_perm hperm.symm⟩

/-! ## A counter written down -/

/-- A value with one of its texts: `"a"`. -/
def nameText : List Token × Octets := ([.text [97]], [34, 97, 34])

/-- `{"counter":null}` -/
def kindText : List Token × Octets :=
  (Json.mapOf [⟨[99, 111, 117, 110, 116, 101, 114], [.null]⟩],
    [123, 34, 99, 111, 117, 110, 116, 101, 114, 34, 58, 110, 117, 108, 108, 125])

/-- ` 7` -/
def deltaText : List Token × Octets := ([.number ⟨false, [7], none, none⟩], [32, 55])

/-- `[ ]` -/
def noteText : List Token × Octets := (Json.listOf [], [91, 32, 93])

theorem spelling_seven : Spelling (.value [.number ⟨false, [7], none, none⟩]) [55] :=
  .number (.mk ⟨⟨by simp, by simp⟩, by simp, by simp, by simp⟩ .absent)

theorem spelling_texts :
    ∀ p ∈ [nameText, kindText, deltaText, noteText], Spelling (.padded p.1) p.2 := by
  have hcounter : Spelling (.members [⟨[99, 111, 117, 110, 116, 101, 114], [.null]⟩]) _ :=
    .last_member (.entry Json.isBlank_nil (Json.Literal.isContent_body "counter".toList)
      Json.isBlank_nil (.bare .null))
  simp only [List.forall_mem_cons]
  refine ⟨?_, ?_, ?_, ?_, List.forall_mem_nil _⟩
  · exact .bare (.text (Json.Literal.isContent_body ['a']))
  · exact .bare (.map hcounter)
  · exact @Spelling.padded _ [32] _ _ (by decide) spelling_seven Json.isBlank_nil
  · exact .bare (.list (@Spelling.no_item [32] (by decide)))

/-- The values of a counter in the order of its fields. -/
def counterTexts : List (List Token × Octets) := [nameText, kindText, deltaText]

theorem spelling_counterTexts : ∀ p ∈ counterTexts, Spelling (.padded p.1) p.2 :=
  fun p hp => spelling_texts p (List.mem_append_left [noteText] hp)

/-- A member with its text. -/
def entry (key : Octets) (p : List Token × Octets) : Member × Octets :=
  (⟨key, p.1⟩, 34 :: (key ++ 34 :: 58 :: p.2))

/-- The object that is made of entries. -/
def objectText (es : List (Member × Octets)) : Octets :=
  123 :: ([44].intercalate (es.map Prod.snd) ++ [125])

theorem isObject_objectText {es : List (Member × Octets)} (hne : es ≠ [])
    (h : ∀ e ∈ es, Spelling (.entry e.1) e.2) (keys : ∀ e ∈ es, (string? e.1.key).isSome) :
    IsObject (es.map Prod.fst) (objectText es) := by
  have hobject := IsObject.mk Json.isBlank_nil (.of_entries hne h) Json.isBlank_nil
    (List.forall_mem_map.2 keys)
  rw [List.nil_append, List.append_nil] at hobject
  exact hobject

/-- The fields of a counter in their order; the key of the name has an escape in it: `"\u0069d"`. -/
def counterEntries : List (Member × Octets) :=
  [entry [92, 117, 48, 48, 54, 57, 100] nameText, entry [116, 121, 112, 101] kindText,
    entry [100, 101, 108, 116, 97] deltaText]

/-- The same members in another order, with one among them that is no field. -/
def shuffledEntries : List (Member × Octets) :=
  [entry [100, 101, 108, 116, 97] deltaText, entry [110, 111, 116, 101] noteText,
    entry [92, 117, 48, 48, 54, 57, 100] nameText, entry [116, 121, 112, 101] kindText]

theorem spelling_shuffledEntries : ∀ e ∈ shuffledEntries, Spelling (.entry e.1) e.2 := by
  have hentry {key : Octets} {p : List Token × Octets} (hkey : Json.Literal.IsContent key)
      (hp : p ∈ [nameText, kindText, deltaText, noteText]) :
      Spelling (.entry (entry key p).1) (entry key p).2 :=
    .entry Json.isBlank_nil hkey Json.isBlank_nil (spelling_texts p hp)
  have hplain (cs : List Char) := Json.Literal.isContent_body cs
  unfold shuffledEntries
  simp only [List.forall_mem_cons]
  refine ⟨?_, ?_, ?_, ?_, List.forall_mem_nil _⟩
  · exact hentry (hplain "delta".toList) (by simp)
  · exact hentry (hplain "note".toList) (by simp)
  · exact hentry (.unit (by decide) (hplain ['d'])) (by simp)
  · exact hentry (hplain "type".toList) (by simp)

theorem isObject_shuffledEntries : IsObject (shuffledEntries.map Prod.fst) (objectText shuffledEntries) :=
  isObject_objectText (by simp [shuffledEntries]) spelling_shuffledEntries (by decide)

theorem isObject_counterEntries : IsObject (counterEntries.map Prod.fst) (objectText counterEntries) := by
  refine isObject_objectText (by simp [counterEntries]) (fun e he => spelling_shuffledEntries e ?_)
    (by decide)
  simp only [counterEntries, shuffledEntries, List.mem_cons, List.not_mem_nil, or_false] at he ⊢
  tauto

theorem describes_counterEntries : Describes (counterEntries.map Prod.fst) (Record.counter "a" 7) where
  id := ⟨_, rfl, [97], rfl, by decide⟩
  type := ⟨_, rfl, Or.inr ⟨_, rfl, by decide⟩⟩
  value := ⟨⟨_, rfl, _, rfl, ⟨rfl, rfl, by decide⟩, by decide⟩, Or.inl rfl⟩

/-- The counter is read from its members in their order, and from the same members in disorder with
another one among them. -/
theorem object_is_record_iff_shuffled :
    IsObject (counterEntries.map Prod.fst) (objectText counterEntries) ∧
      IsObject (shuffledEntries.map Prod.fst) (objectText shuffledEntries) ∧
      decodeRecord (objectText counterEntries) = .ok (Record.counter "a" 7) ∧
      decodeRecord (objectText shuffledEntries) = .ok (Record.counter "a" 7) := by
  obtain ⟨hiff, hsame⟩ := object_is_record_iff isObject_counterEntries
  have hrecord := (hiff _).2 describes_counterEntries
  exact ⟨isObject_counterEntries, isObject_shuffledEntries, hrecord,
    (hsame isObject_shuffledEntries (by decide) _).1 hrecord⟩

end Telemetry.Wire
