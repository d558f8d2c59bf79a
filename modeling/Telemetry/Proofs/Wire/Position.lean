/-
Records written as lists of their fields. The reader of lists has its own way through the fields and
its own complaints; on the same values it gives what the reader of objects gives. Main statement:
`shapes_agree`.
-/
import Telemetry.Proofs.Wire.Description

namespace Telemetry.Wire

open Json (Token Member IsValue IsBlank Spelling listOf)
open Json.Literal (string? string?_body body)
open Text.Utf8 (Octets)

variable {d e : Draft} {f g : Field} {v : List Token} {vs : List (List Token)} {ms : List Member}

/-! ## Reading the items one by one -/

/-- What is behind an item of a list. -/
def behindItem (vs : List (List Token)) (rest : List Token) : List Token :=
  match vs with
  | [] => .listClose :: rest
  | v :: vs => .comma :: ([.comma].intercalate (v :: vs) ++ .listClose :: rest)

theorem intercalate_behindItem (v : List Token) (vs : List (List Token)) (rest : List Token) :
    [.comma].intercalate (v :: vs) ++ .listClose :: rest = v ++ behindItem vs rest := by
  cases vs with
  | nil => simp [behindItem]
  | cons w vs => simp [behindItem]

theorem readItem_cons (d : Draft) (f : Field) (h : IsValue v) (vs : List (List Token))
    (rest : List Token) : readItem d f (behindItem (v :: vs) rest) =
      (d.put f v).map fun e => (some e, behindItem vs rest) := by
  have hread := Draft.readField_append d f h (behindItem vs rest)
  show (d.readField f ([.comma].intercalate (v :: vs) ++ .listClose :: rest)).map _ = _
  rw [intercalate_behindItem, hread]
  cases d.put f v <;> rfl

/-- Puts values into fields, one after the other. -/
def Draft.putAll (d : Draft) (ps : List (Field × List Token)) : Except Fault Draft :=
  ps.foldlM (fun d p => d.put p.1 p.2) d

theorem Draft.putAll_cons (d : Draft) (p : Field × List Token) (ps : List (Field × List Token)) :
    d.putAll (p :: ps) = (d.put p.1 p.2).bind fun e => e.putAll ps := by
  unfold Draft.putAll
  rw [List.foldlM_cons]
  rfl

/-- What the values of a list make of a record's fields in their order. -/
def positioned (vs : List (List Token)) : Except Fault Draft :=
  (Draft.putAll {} (Field.all.zip vs)).bind fun d =>
    if vs.length < 2 then .error (.complaint (.tooShort vs.length))
    else if 4 < vs.length then .error .malformed
    else .ok d

theorem readValueItems_behindItem (h : ∀ v ∈ vs, IsValue v) (rest : List Token) :
    (readValueItems d (behindItem vs rest)).bind closeList =
      ((d.putAll ([.delta, .value].zip vs)).bind fun e =>
        if 2 < vs.length then .error .malformed else .ok e).map fun e => (e, rest) := by
  unfold readValueItems
  cases vs with
  | nil => rfl
  | cons n vs =>
    rw [readItem_cons d .delta (h n List.mem_cons_self), List.zip_cons_cons, Draft.putAll_cons]
    cases d.put .delta n with
    | error fault => rfl
    | ok e =>
      cases vs with
      | nil => rfl
      | cons x vs =>
        simp only [Except.map, Except.bind]
        rw [readItem_cons e .value (h x (by simp)), List.zip_cons_cons, Draft.putAll_cons]
        cases e.put .value x with
        | error fault => rfl
        | ok e' => cases vs <;> rfl

theorem readFields_intercalate (h : ∀ v ∈ vs, IsValue v) (rest : List Token) :
    readFields ([.comma].intercalate vs ++ .listClose :: rest) =
      (positioned vs).map fun d => (d, rest) := by
  cases vs with
  | nil => rfl
  | cons i vs =>
    have hread := Draft.readField_append {} .id (h i List.mem_cons_self) (behindItem vs rest)
    obtain ⟨t, ts, hfirst, hclose⟩ := (h i List.mem_cons_self).first
    unfold positioned Field.all
    rw [intercalate_behindItem, List.zip_cons_cons, Draft.putAll_cons]
    unfold readFields
    split
    · rename_i heq
      rw [hfirst] at heq
      exact absurd (List.cons.inj heq).1 hclose
    · rw [hread]
      cases ({} : Draft).put .id i with
      | error fault => rfl
      | ok d =>
        cases vs with
        | nil => rfl
        | cons t vs =>
          simp only [Except.map, Except.bind]
          rw [readItem_cons d .type (h t (by simp)), List.zip_cons_cons, Draft.putAll_cons]
          cases d.put .type t with
          | error fault => rfl
          | ok e =>
            have hvalues : ∀ v ∈ vs, IsValue v := fun v hv => h v (by simp [hv])
            refine (readValueItems_behindItem hvalues rest).trans ?_
            have hshort : ¬vs.length + 1 + 1 < 2 := by omega
            have hlong : 4 < vs.length + 1 + 1 ↔ 2 < vs.length := by omega
            simp only [Except.bind, List.length_cons, hshort, hlong, if_false]
            cases e.putAll ([.delta, .value].zip vs) <;> rfl

/-- What the values of a list make of a record. -/
theorem readRecord_listOf (h : ∀ v ∈ vs, IsValue v) (rest : List Token) :
    readRecord (listOf vs ++ rest) =
      ((positioned vs).bind Draft.record).map fun r => (r, rest) := by
  have hdraft : readDraft (listOf vs ++ rest) = (positioned vs).map fun d => (d, rest) := by
    refine Eq.trans ?_ (readFields_intercalate h rest)
    unfold listOf
    rw [List.cons_append, List.append_assoc]
    rfl
  unfold readRecord
  rw [hdraft]
  cases positioned vs <;> rfl

/-! ## The same values as members -/

theorem Draft.has_put (h : d.put f v = .ok e) (hg : g ≠ f) : e.has g = d.has g := by
  unfold Draft.put at h
  cases hread : complete (f.read v) with
  | error fault =>
    rw [hread] at h
    cases h
  | ok a =>
    rw [hread] at h
    obtain rfl : d.set f a = e := Except.ok.inj h
    rw [Draft.has_eq, Draft.has_eq, Draft.get_set_of_ne a hg]

/-- Members with the keys of different fields that are free put their values into these fields. -/
theorem foldlM_take_eq_putAll {fs : List Field}
    (hnames : ms.map (fun m => string? m.key) <+: fs.map fun f => some f.word)
    (hdistinct : fs.Nodup) (hfree : ∀ f ∈ fs, d.has f = false) :
    ms.foldlM Draft.take d = d.putAll (fs.zip (ms.map Member.value)) := by
  induction ms generalizing fs d with
  | nil =>
    rw [List.map_nil, List.zip_nil_right]
    rfl
  | cons m ms ih =>
    cases fs with
    | nil => simp at hnames
    | cons f fs =>
      obtain ⟨hname, hmore⟩ := List.cons_prefix_cons.1 hnames
      obtain ⟨hnew, hdistinct⟩ := List.nodup_cons.1 hdistinct
      rw [List.foldlM_cons, List.map_cons, List.zip_cons_cons, Draft.putAll_cons, take_field hname,
        hfree f List.mem_cons_self, if_neg Bool.false_ne_true]
      cases hput : d.put f m.value with
      | error fault => rfl
      | ok e =>
        refine ih hmore hdistinct fun g hg => ?_
        rw [Draft.has_put hput (by rintro rfl; exact hnew hg)]
        exact hfree g (List.mem_cons_of_mem _ hg)

/-- The members are the fields of a record in their order, as far as they go. -/
def InOrder (ms : List Member) : Prop :=
  ms.map (fun m => string? m.key) <+: Field.all.map fun f => some f.word

theorem InOrder.length_le (h : InOrder ms) : ms.length ≤ 4 := by
  have hlength := List.IsPrefix.length_le h
  rw [List.length_map, List.length_map] at hlength
  exact hlength

theorem positioned_eq_foldlM (h : InOrder ms) (hlong : 2 ≤ ms.length) :
    positioned (ms.map Member.value) = ms.foldlM Draft.take {} := by
  have hshort := h.length_le
  have hfree : ∀ f ∈ Field.all, ({} : Draft).has f = false := by decide
  rw [foldlM_take_eq_putAll h (by decide) hfree]
  unfold positioned
  simp only [List.length_map, hlong.not_gt, hshort.not_gt, if_false]
  cases Draft.putAll {} (Field.all.zip (ms.map Member.value)) <;> rfl

/-! ## Documents -/

/-- A text that is a list of values. -/
inductive IsList : List (List Token) → Octets → Prop where
  | mk {vs : List (List Token)} {before x behind : Octets} (blank_before : IsBlank before)
    (inside : Spelling (.items vs) x) (blank_behind : IsBlank behind) :
    IsList vs (before ++ ((91 :: (x ++ [93])) ++ behind))

theorem IsList.isValue {list : Octets} (h : IsList vs list) : ∀ v ∈ vs, IsValue v := by
  obtain ⟨-, inside, -⟩ := h
  exact inside.isValue

theorem IsList.decodeRecord_eq {list : Octets} (h : IsList vs list) :
    decodeRecord list = (positioned vs).bind Draft.record := by
  have hread := readRecord_listOf h.isValue []
  obtain ⟨blank_before, inside, blank_behind⟩ := h
  rw [List.append_nil] at hread
  rw [decodeRecord_of_spelling (.padded blank_before (.list inside) blank_behind), hread,
    complete_map]

/-- Values with the names of the fields for keys, in their order. -/
def inOrder (vs : List (List Token)) : List Member :=
  (Field.all.zip vs).map fun p => ⟨body p.1.word.toList, p.2⟩

theorem map_value_inOrder (h : vs.length ≤ 4) : (inOrder vs).map Member.value = vs := by
  unfold inOrder
  rw [List.map_map]
  exact List.map_snd_zip h

theorem inOrder_inOrder (vs : List (List Token)) : InOrder (inOrder vs) := by
  have hkeys : (inOrder vs).map (fun m => string? m.key) =
      ((Field.all.zip vs).map Prod.fst).map fun f => some f.word := by
    simp only [inOrder, List.map_map, Function.comp_def, string?_body]
  have hfields : (Field.all.zip vs).map Prod.fst <+: Field.all := by
    rcases vs with _ | ⟨i, _ | ⟨t, _ | ⟨n, _ | ⟨x, more⟩⟩⟩⟩ <;> simp [Field.all]
  unfold InOrder
  rw [hkeys]
  exact hfields.map _

theorem valuesOf_inOrder (f : Field) (vs : List (List Token)) :
    valuesOf f (inOrder vs) = ((Field.all.zip vs).filter fun p => p.1 = f).map Prod.snd := by
  have hkey (p : Field × List Token) :
      decide (string? (body p.1.word.toList) = some f.word) = decide (p.1 = f) := by
    rw [string?_body]
    exact decide_eq_decide.2 ⟨fun h => word_injective (Option.some.inj h), fun h => by rw [h]⟩
  simp only [valuesOf, inOrder, List.filter_map, List.map_map, Function.comp_def, hkey]

theorem carried_inOrder (vs : List (List Token)) :
    valuesOf .delta (inOrder vs) = vs[2]?.toList ∧ valuesOf .value (inOrder vs) = vs[3]?.toList := by
  rw [valuesOf_inOrder, valuesOf_inOrder]
  rcases vs with _ | ⟨i, _ | ⟨t, _ | ⟨n, _ | ⟨x, more⟩⟩⟩⟩ <;> exact ⟨rfl, rfl⟩

theorem length_of_positioned (h : positioned vs = .ok d) : 2 ≤ vs.length ∧ vs.length ≤ 4 := by
  obtain ⟨e, -, hlength⟩ := bind_eq_ok.1 h
  split at hlength
  · cases hlength
  · split at hlength
    · cases hlength
    · omega

/-- In a list that is a record, exactly the value field of its kind has a value. -/
theorem carries_of_positioned (hv : ∀ v ∈ vs, IsValue v) {r : Record}
    (h : positioned vs = .ok d) (hrecord : d.record = .ok r) :
    Carries vs[2]?.toList vs[3]?.toList r.value := by
  obtain ⟨hlong, hshort⟩ := length_of_positioned h
  have hvalues := map_value_inOrder hshort
  have hcount : (inOrder vs).length = vs.length := by rw [← hvalues, List.length_map, hvalues]
  have hfold : (inOrder vs).foldlM Draft.take {} = .ok d := by
    rw [← positioned_eq_foldlM (inOrder_inOrder vs) (hlong.trans_eq hcount.symm), hvalues, h]
  have hmembers : ∀ m ∈ inOrder vs, IsValue m.value := by
    intro m hm
    exact hv _ (hvalues ▸ List.mem_map_of_mem hm)
  have hkeys : ∀ m ∈ inOrder vs, (string? m.key).isSome := by
    intro m hm
    obtain ⟨p, -, rfl⟩ := List.mem_map.1 hm
    rw [string?_body]
    rfl
  have hdescribes := describes_iff.1 ⟨d, (foldlM_take_eq_ok hmembers hkeys).1 hfold, hrecord⟩
  have hcarries := hdescribes.value
  rw [(carried_inOrder vs).1, (carried_inOrder vs).2] at hcarries
  exact hcarries

/-- A list of values is the record that an object is with the same values for its fields, and the
complaints are the same too. A list of another length is no record, and none is without exactly the
value that belongs to its kind. -/
theorem shapes_agree {list : Octets} (h : IsList vs list) :
    (∀ {ms : List Member} {object : Octets}, IsObject ms object → InOrder ms →
        ms.map Member.value = vs → 2 ≤ vs.length → decodeRecord list = decodeRecord object) ∧
      ∀ r, decodeRecord list = .ok r →
        (2 ≤ vs.length ∧ vs.length ≤ 4) ∧ Carries vs[2]?.toList vs[3]?.toList r.value := by
  constructor
  · intro ms object hobject horder hvalues hlong
    rw [h.decodeRecord_eq, hobject.decodeRecord_eq, ← positioned_eq_foldlM horder, hvalues]
    rw [← hvalues, List.length_map] at hlong
    exact hlong
  · intro r hr
    rw [h.decodeRecord_eq] at hr
    obtain ⟨d, hd, hrecord⟩ := bind_eq_ok.1 hr
    exact ⟨length_of_positioned hd, carries_of_positioned h.isValue hd hrecord⟩

/-- The list that is made of values. -/
def listText (ps : List (List Token × Octets)) : Octets :=
  91 :: ([44].intercalate (ps.map Prod.snd) ++ [93])

theorem spelling_listText {ps : List (List Token × Octets)} (hne : ps ≠ [])
    (h : ∀ p ∈ ps, Spelling (.padded p.1) p.2) :
    Spelling (.value (listOf (ps.map Prod.fst))) (listText ps) :=
  .list (.of_items hne h)

theorem isList_listText {ps : List (List Token × Octets)} (hne : ps ≠ [])
    (h : ∀ p ∈ ps, Spelling (.padded p.1) p.2) : IsList (ps.map Prod.fst) (listText ps) := by
  have hlist := IsList.mk Json.isBlank_nil (.of_items hne h) Json.isBlank_nil
  rw [List.nil_append, List.append_nil] at hlist
  exact hlist

/-- The counter as a list and as an object. -/
theorem shapes_agree_counter :
    IsList (counterTexts.map Prod.fst) (listText counterTexts) ∧
      IsObject (counterEntries.map Prod.fst) (objectText counterEntries) ∧
      InOrder (counterEntries.map Prod.fst) ∧
      decodeRecord (listText counterTexts) = decodeRecord (objectText counterEntries) ∧
      decodeRecord (listText counterTexts) = .ok (Record.counter "a" 7) ∧
      Carries [deltaText.1] [] (.counter 7) := by
  have hlist := isList_listText (by simp [counterTexts]) spelling_counterTexts
  have horder : InOrder (counterEntries.map Prod.fst) := by
    unfold InOrder
    decide
  obtain ⟨hsame, hcarries⟩ := shapes_agree hlist
  have hequal := hsame isObject_counterEntries horder rfl (by decide)
  have hrecord : decodeRecord (listText counterTexts) = .ok (Record.counter "a" 7) := by
    rw [hequal]
    exact isObject_counterEntries.decodeRecord_eq_ok.2 describes_counterEntries
  exact ⟨hlist, isObject_counterEntries, horder, hequal, hrecord, (hcarries _ hrecord).2⟩

end Telemetry.Wire
