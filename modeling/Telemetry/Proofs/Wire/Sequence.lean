/-
A batch is read element by element. Each element comes to what it comes to as a document of its own,
and the first that is no record decides the whole. Main statement: `batch_by_elements`.
-/
import Mathlib.Data.List.Forall2
import Telemetry.Proofs.Wire.Position

namespace Telemetry.Wire

open Json (Token IsValue IsBlank Spelling listOf)
open Text.Utf8 (Octets)

variable {v : List Token} {vs : List (List Token)}

/-! ## One record after the other -/

/-- A record is taken off in front of whatever is behind it. -/
theorem readRecord_append (h : IsValue v) (rest : List Token) :
    readRecord (v ++ rest) = (complete (readRecord v)).map fun r => (r, rest) := by
  have hneither (hread : ∀ rest, readRecord (v ++ rest) = .error (mismatch .record (v ++ rest))) :
      ∀ rest, readRecord (v ++ rest) =
        (Except.error (mismatch .record v)).map fun r => (r, rest) := by
    intro rest
    rw [hread rest, mismatch_append h]
    rfl
  cases h with
  | list items => exact read_append (readRecord_listOf items) rest
  | map members => exact read_append (readRecord_mapOf members) rest
  | _ => exact read_append (hneither fun _ => rfl) rest

section

variable {ts rest : List Token} {acc : List Record} {r : Record}

theorem readRecords_comma (h : readRecord ts = .ok (r, .comma :: rest)) :
    readRecords acc ts = readRecords (r :: acc) rest := by
  rw [readRecords]
  split <;> simp_all

theorem readRecords_close (h : readRecord ts = .ok (r, .listClose :: rest)) :
    readRecords acc ts = .ok ((r :: acc).reverse, rest) := by
  rw [readRecords]
  split <;> simp_all

theorem readRecords_fault {e : Fault} (h : readRecord ts = .error e) :
    readRecords acc ts = .error e := by
  rw [readRecords]
  split <;> simp_all

end

/-- The records are read one by one, and the first that cannot be used ends the reading. -/
theorem readRecords_intercalate (h : ∀ w ∈ v :: vs, IsValue w) (acc : List Record)
    (rest : List Token) :
    readRecords acc ([.comma].intercalate (v :: vs) ++ .listClose :: rest) =
      ((v :: vs).mapM fun w => complete (readRecord w)).map fun b => (acc.reverse ++ b, rest) := by
  have hv := h v List.mem_cons_self
  rw [intercalate_behindItem]
  induction vs generalizing v acc with
  | nil =>
    have hread := readRecord_append hv (behindItem [] rest)
    rw [List.mapM_cons]
    cases hr : complete (readRecord v) with
    | error e =>
      rw [hr] at hread
      exact readRecords_fault hread
    | ok r =>
      rw [hr] at hread
      refine (readRecords_close hread).trans ?_
      rw [List.reverse_cons]
      rfl
  | cons w vs ih =>
    have hread := readRecord_append hv (behindItem (w :: vs) rest)
    have hmore : ∀ u ∈ w :: vs, IsValue u := fun u hu => h u (List.mem_cons_of_mem _ hu)
    rw [List.mapM_cons]
    cases hr : complete (readRecord v) with
    | error e =>
      rw [hr] at hread
      exact readRecords_fault hread
    | ok r =>
      rw [hr] at hread
      refine (readRecords_comma hread).trans ?_
      rw [intercalate_behindItem, ih hmore (r :: acc) (hmore w List.mem_cons_self)]
      cases (w :: vs).mapM fun u => complete (readRecord u) with
      | error e => rfl
      | ok c =>
        show Except.ok ((r :: acc).reverse ++ c, rest) = Except.ok (acc.reverse ++ (r :: c), rest)
        rw [List.reverse_cons, List.append_assoc]
        rfl

/-- A list of values is read as the batch of what its values are read as. -/
theorem readBatch_listOf (h : ∀ v ∈ vs, IsValue v) (rest : List Token) :
    readBatch (listOf vs ++ rest) =
      (vs.mapM fun v => complete (readRecord v)).map fun b => (b, rest) := by
  cases vs with
  | nil => rfl
  | cons v vs =>
    refine Eq.trans ?_ (readRecords_intercalate h [] rest)
    obtain ⟨t, ts, rfl, hclose⟩ := (h v List.mem_cons_self).first
    unfold listOf
    rw [List.cons_append, List.append_assoc, List.singleton_append, intercalate_behindItem,
      List.cons_append]
    unfold readBatch
    split
    · rename_i heq
      exact absurd (List.cons.inj (List.cons.inj heq).2).1 hclose
    · rename_i heq
      rw [(List.cons.inj heq).2]
    · rename_i hnot
      exact absurd rfl (hnot _)

/-! ## Results one after the other -/

section

variable {α β : Type} {f : α → Except Fault β} {xs : List α}

theorem mapM_eq_ok {ys : List β} : xs.mapM f = .ok ys ↔ List.Forall₂ (fun x y => f x = .ok y) xs ys := by
  induction xs generalizing ys with
  | nil =>
    rw [List.mapM_nil, List.forall₂_nil_left_iff]
    exact ⟨fun h => (Except.ok.inj h).symm, fun h => h ▸ rfl⟩
  | cons x xs ih =>
    rw [List.mapM_cons, List.forall₂_cons_left_iff]
    simp only [← ih]
    cases f x with
    | error e => simp [bind, Except.bind]
    | ok y => cases xs.mapM f <;> simp [bind, Except.bind, pure, Except.pure, eq_comm]

/-- What comes behind the first error does not matter. -/
theorem mapM_of_first_error {front back : List α} {x : α} {e : Fault}
    (hfront : ∀ q ∈ front, ∃ y, f q = .ok y) (hx : f x = .error e) :
    (front ++ x :: back).mapM f = .error e := by
  induction front with
  | nil =>
    rw [List.nil_append, List.mapM_cons, hx]
    rfl
  | cons q front ih =>
    obtain ⟨y, hy⟩ := hfront q List.mem_cons_self
    rw [List.cons_append, List.mapM_cons, hy, ih fun p hp => hfront p (List.mem_cons_of_mem _ hp)]
    rfl

end

/-! ## Documents -/

/-- A value as it stands in a list: its text, and the white space around it. -/
structure Element where
  before : Octets
  text : Octets
  behind : Octets

namespace Element

def octets (e : Element) : Octets := e.before ++ (e.text ++ e.behind)

/-- White space stands around the text of one value. -/
structure IsSpelt (e : Element) : Prop where
  blank_before : IsBlank e.before
  value : ∃ v, Spelling (.value v) e.text
  blank_behind : IsBlank e.behind

theorem IsSpelt.spelling {e : Element} (h : e.IsSpelt) :
    Spelling (.padded (Json.scan e.text)) e.octets := by
  obtain ⟨blank_before, ⟨v, hv⟩, blank_behind⟩ := h
  rw [hv.bare.scan_eq]
  exact .padded blank_before hv blank_behind

end Element

/-- A text that is a list of elements. -/
inductive IsSequence : List Element → Octets → Prop where
  | empty {before inside behind : Octets} (blank_before : IsBlank before) (blank : IsBlank inside)
    (blank_behind : IsBlank behind) : IsSequence [] (before ++ ((91 :: (inside ++ [93])) ++ behind))
  | elements {es : List Element} {before behind : Octets} (blank_before : IsBlank before)
    (nonempty : es ≠ []) (spelt : ∀ e ∈ es, e.IsSpelt) (blank_behind : IsBlank behind) :
    IsSequence es
      (before ++ ((91 :: ([44].intercalate (es.map Element.octets) ++ [93])) ++ behind))

variable {es : List Element} {document : Octets}

theorem IsSequence.isList (h : IsSequence es document) :
    IsList (es.map fun e => Json.scan e.text) document := by
  cases h with
  | empty blank_before blank blank_behind => exact .mk blank_before (.no_item blank) blank_behind
  | elements blank_before nonempty spelt blank_behind =>
    have hspelt : ∀ p ∈ es.map fun e => (Json.scan e.text, e.octets), Spelling (.padded p.1) p.2 :=
      List.forall_mem_map.2 fun e he => (spelt e he).spelling
    have hitems := Spelling.of_items (by simpa using nonempty) hspelt
    rw [List.map_map, List.map_map] at hitems
    exact .mk blank_before hitems blank_behind

theorem IsList.decodeBatch_eq {list : Octets} (h : IsList vs list) :
    decodeBatch list = vs.mapM fun v => complete (readRecord v) := by
  have hread := readBatch_listOf h.isValue []
  obtain ⟨blank_before, inside, blank_behind⟩ := h
  have hspelt : Spelling (.padded (listOf vs)) _ := .padded blank_before (.list inside) blank_behind
  rw [List.append_nil] at hread
  unfold decodeBatch
  rw [hspelt.scan_eq, hread, complete_map]

/-- A batch comes to what the texts of its elements come to one by one. -/
theorem IsSequence.decodeBatch_eq (h : IsSequence es document) :
    decodeBatch document = es.mapM fun e => decodeRecord e.text := by
  rw [h.isList.decodeBatch_eq, List.mapM_map]
  rfl

/-- A batch is the list of the records that its elements are, or else the complaint about the first
that is none, whatever follows it. -/
theorem batch_by_elements (h : IsSequence es document) :
    (∀ b, decodeBatch document = .ok b ↔
        List.Forall₂ (fun e r => decodeRecord e.text = .ok r) es b) ∧
      ∀ {front back : List Element} {e : Element} {fault : Fault}, es = front ++ e :: back →
        (∀ q ∈ front, ∃ r, decodeRecord q.text = .ok r) → decodeRecord e.text = .error fault →
        decodeBatch document = .error fault := by
  rw [h.decodeBatch_eq]
  refine ⟨fun b => mapM_eq_ok, ?_⟩
  rintro front back e fault rfl hfront he
  exact mapM_of_first_error hfront he

/-- ` ["a",{"counter":null}, 7]` -/
def recordElement : Element := ⟨[32], listText counterTexts, []⟩

/-- `7 ` -/
def numberElement : Element := ⟨[], [55], [32]⟩

/-- `[ ]` -/
def emptyElement : Element := ⟨[], [91, 32, 93], []⟩

/-- A record, a number and an empty list: the complaint is about the number. -/
theorem batch_by_elements_number :
    IsSequence [recordElement, numberElement, emptyElement]
        (91 :: ([44].intercalate
          ([recordElement, numberElement, emptyElement].map Element.octets) ++ [93])) ∧
      decodeRecord recordElement.text = .ok (Record.counter "a" 7) ∧
      decodeRecord numberElement.text =
        .error (.complaint (.wrongType (.number (.natural 7)) .record)) ∧
      decodeBatch (91 :: ([44].intercalate
          ([recordElement, numberElement, emptyElement].map Element.octets) ++ [93])) =
        .error (.complaint (.wrongType (.number (.natural 7)) .record)) := by
  have hspelt : ∀ e ∈ [recordElement, numberElement, emptyElement], e.IsSpelt := by
    have hlist := spelling_listText (by simp [counterTexts]) spelling_counterTexts
    have hempty : Spelling (.value (listOf [])) [91, 32, 93] :=
      .list (@Spelling.no_item [32] (by decide))
    simp only [List.forall_mem_cons]
    exact ⟨⟨by decide, ⟨_, hlist⟩, by decide⟩, ⟨by decide, ⟨_, spelling_seven⟩, by decide⟩,
      ⟨by decide, ⟨_, hempty⟩, by decide⟩, List.forall_mem_nil _⟩
  have hsequence := IsSequence.elements Json.isBlank_nil (by simp) hspelt Json.isBlank_nil
  rw [List.nil_append, List.append_nil] at hsequence
  have hrecord : decodeRecord recordElement.text = .ok (Record.counter "a" 7) :=
    (isList_listText (by simp [counterTexts]) spelling_counterTexts).decodeRecord_eq
  have hnumber : decodeRecord numberElement.text =
      .error (.complaint (.wrongType (.number (.natural 7)) .record)) :=
    decodeRecord_of_spelling (.bare spelling_seven)
  have hfirst : [recordElement, numberElement, emptyElement] =
      [recordElement] ++ numberElement :: [emptyElement] := rfl
  exact ⟨hsequence, hrecord, hnumber,
    (batch_by_elements hsequence).2 hfirst (List.forall_mem_singleton.2 ⟨_, hrecord⟩) hnumber⟩

end Telemetry.Wire
