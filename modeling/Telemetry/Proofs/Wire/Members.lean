/-
The members of an object. The reader goes through them once, in their order, and keeps what it has
read of the four fields. Main statement: this one pass fills every field by its own members, whatever
stands between them.
-/
import Telemetry.Proofs.Json.Skip
import Telemetry.Proofs.Wire.Object
import Telemetry.Proofs.Wire.Reader

namespace Telemetry.Wire

open Json (Token Member IsValue mapOf)
open Json.Literal (string?)

variable {d e : Draft} {f g : Field} {m : Member} {ms : List Member} {v : List Token}

/-! ## Reading the members one by one -/

/-- What a member makes of the fields read before it. -/
def Draft.take (d : Draft) (m : Member) : Except Fault Draft :=
  match string? m.key with
  | none => .error .malformed
  | some key => match Field.ofKey? key with
    | none => .ok d
    | some f => if d.has f then .error (.complaint (.duplicate f)) else d.put f m.value

theorem readMember_tokens (h : IsValue m.value) (rest : List Token) :
    readMember d (m.tokens ++ rest) = (d.take m).map fun e => (e, rest) := by
  unfold Member.tokens readMember Draft.take
  simp only [List.cons_append]
  cases string? m.key with
  | none => rfl
  | some key =>
    simp only
    cases Field.ofKey? key with
    | none => simp only [Json.Skip.value?_append h, Except.map]
    | some f =>
      simp only
      by_cases hf : d.has f = true
      · rw [if_pos hf, if_pos hf]
        rfl
      · rw [if_neg hf, if_neg hf]
        exact Draft.readField_append d f h rest

theorem readMembers_fault {ts : List Token} {fault : Fault} (h : readMember d ts = .error fault) :
    readMembers d ts = .error fault := by
  rw [readMembers]
  split <;> simp_all

theorem readMembers_intercalate (h : ∀ n ∈ m :: ms, IsValue n.value) (rest : List Token) :
    readMembers d ([.comma].intercalate ((m :: ms).map Member.tokens) ++ .mapClose :: rest) =
      ((m :: ms).foldlM Draft.take d).map fun e => (e, rest) := by
  have hm := h m List.mem_cons_self
  induction ms generalizing m d with
  | nil =>
    have hread : readMember d (m.tokens ++ .mapClose :: rest) = _ := readMember_tokens hm _
    rw [List.map_singleton, List.intercalate_singleton, List.foldlM_cons]
    cases ht : d.take m with
    | error fault =>
      rw [ht] at hread
      exact readMembers_fault hread
    | ok e =>
      rw [ht] at hread
      exact readMembers_close hread
  | cons n ms ih =>
    have hread : readMember d (m.tokens ++ .comma ::
        ([.comma].intercalate ((n :: ms).map Member.tokens) ++ .mapClose :: rest)) = _ :=
      readMember_tokens hm _
    rw [List.map_cons, List.map_cons, List.intercalate_cons_cons, List.append_assoc,
      List.append_assoc, List.foldlM_cons]
    cases ht : d.take m with
    | error fault =>
      rw [ht] at hread
      exact readMembers_fault hread
    | ok e =>
      rw [ht] at hread
      have hmore : ∀ k ∈ n :: ms, IsValue k.value := fun k hk => h k (List.mem_cons_of_mem _ hk)
      exact (readMembers_comma hread).trans (ih hmore (hmore n List.mem_cons_self))

/-- What the members of an object make of a record. -/
theorem readRecord_mapOf (h : ∀ m ∈ ms, IsValue m.value) (rest : List Token) :
    readRecord (mapOf ms ++ rest) =
      ((ms.foldlM Draft.take {}).bind Draft.record).map fun r => (r, rest) := by
  have hdraft : readDraft (mapOf ms ++ rest) = (ms.foldlM Draft.take {}).map fun e => (e, rest) := by
    cases ms with
    | nil => rfl
    | cons m ms =>
      refine Eq.trans ?_ (readMembers_intercalate h rest)
      unfold mapOf
      rw [List.cons_append, List.append_assoc]
      cases ms <;> rfl
  unfold readRecord
  rw [hdraft]
  cases ms.foldlM Draft.take {} <;> rfl

/-! ## What the members say together -/

theorem ofKey?_eq_some {key : String} : Field.ofKey? key = some f ↔ key = f.word := by
  constructor
  · intro h
    have hword := List.find?_some h
    exact (eq_of_beq hword).symm
  · rintro rfl
    exact ofKey?_word f

theorem word_injective (h : f.word = g.word) : f = g := by
  have hkey := ofKey?_word g
  rw [← h, ofKey?_word] at hkey
  exact Option.some.inj hkey

/-- The values of the members with the key of a field, in their order. -/
def valuesOf (f : Field) (ms : List Member) : List (List Token) :=
  (ms.filter fun m => string? m.key = some f.word).map Member.value

theorem valuesOf_cons_self (h : string? m.key = some f.word) :
    valuesOf f (m :: ms) = m.value :: valuesOf f ms := by
  simp [valuesOf, h]

theorem valuesOf_cons_other (h : string? m.key ≠ some f.word) :
    valuesOf f (m :: ms) = valuesOf f ms := by
  simp [valuesOf, h]

section Filled

variable {α : Type} {means : α → List Token → Prop} {before after : Option α}
  {vs : List (List Token)} {a : α}

/-- How a field is filled: by no value, or by one value where nothing had been read. -/
def Filled (means : α → List Token → Prop) (before : Option α) (vs : List (List Token))
    (after : Option α) : Prop :=
  vs = [] ∧ after = before ∨ ∃ v a, vs = [v] ∧ before = none ∧ means a v ∧ after = some a

theorem filled_nil : Filled means before [] after ↔ after = before := by simp [Filled]

theorem filled_some : Filled means (some a) vs after ↔ vs = [] ∧ after = some a := by
  simp [Filled]

theorem filled_cons : Filled means before (v :: vs) after ↔
    before = none ∧ ∃ a, means a v ∧ Filled means (some a) vs after := by
  constructor
  · rintro (⟨hvs, -⟩ | ⟨w, a, hvs, hbefore, ha, hafter⟩)
    · cases hvs
    · obtain ⟨rfl, rfl⟩ := List.cons.inj hvs
      exact ⟨hbefore, a, ha, filled_some.2 ⟨rfl, hafter⟩⟩
  · rintro ⟨hbefore, a, ha, hmore⟩
    obtain ⟨rfl, hafter⟩ := filled_some.1 hmore
    exact Or.inr ⟨v, a, rfl, hbefore, ha, hafter⟩

end Filled

/-- Every field is filled by its own members. -/
def FilledBy (d : Draft) (ms : List Member) (e : Draft) : Prop :=
  ∀ f : Field, Filled f.Means (d.get f) (valuesOf f ms) (e.get f)

/-- Whether a member's key is a field. -/
def isKnown (m : Member) : Bool := Field.all.any fun f => string? m.key = some f.word

theorem isKnown_iff : isKnown m = true ↔ ∃ f : Field, string? m.key = some f.word := by
  have hall (f : Field) : f ∈ Field.all := by cases f <;> decide
  simp [isKnown, hall]

theorem ne_word_of_not_isKnown (h : ¬isKnown m = true) (f : Field) : string? m.key ≠ some f.word :=
  fun hf => h (isKnown_iff.2 ⟨f, hf⟩)

theorem take_other (hkey : (string? m.key).isSome) (h : ¬isKnown m = true) : d.take m = .ok d := by
  obtain ⟨key, hk⟩ := Option.isSome_iff_exists.1 hkey
  have hnone : Field.ofKey? key = none := by
    refine Option.eq_none_iff_forall_ne_some.2 fun f hf => ne_word_of_not_isKnown h f ?_
    rw [hk, ofKey?_eq_some.1 hf]
  unfold Draft.take
  simp only [hk, hnone]

theorem take_field (h : string? m.key = some f.word) :
    d.take m = if d.has f then .error (.complaint (.duplicate f)) else d.put f m.value := by
  unfold Draft.take
  simp only [h, ofKey?_word]

theorem take_eq_ok (hv : IsValue m.value) (h : string? m.key = some f.word) :
    d.take m = .ok e ↔ d.get f = none ∧ ∃ a, f.Means a m.value ∧ e = d.set f a := by
  rw [take_field h, Draft.has_eq]
  cases d.get f with
  | none => simp [Draft.put_eq_ok hv]
  | some b => simp

/-- A member that is no field leaves everything to the members behind it. -/
theorem filledBy_cons_other (h : ¬isKnown m = true) : FilledBy d (m :: ms) e ↔ FilledBy d ms e := by
  unfold FilledBy
  simp only [valuesOf_cons_other (ne_word_of_not_isKnown h _)]

/-- A member that is a field fills it, where it has been free, and must remain the only one. -/
theorem filledBy_cons_field (h : string? m.key = some f.word) :
    FilledBy d (m :: ms) e ↔
      d.get f = none ∧ ∃ a, f.Means a m.value ∧ FilledBy (d.set f a) ms e := by
  have hother {g : Field} (hg : g ≠ f) : valuesOf g (m :: ms) = valuesOf g ms := by
    refine valuesOf_cons_other fun hword => hg ?_
    rw [h] at hword
    exact (word_injective (Option.some.inj hword)).symm
  constructor
  · intro hall
    have hf := hall f
    rw [valuesOf_cons_self h] at hf
    obtain ⟨hfree, a, ha, hmore⟩ := filled_cons.1 hf
    refine ⟨hfree, a, ha, fun g => ?_⟩
    by_cases hg : g = f
    · subst hg
      rw [Draft.get_set_self]
      exact hmore
    · rw [Draft.get_set_of_ne a hg, ← hother hg]
      exact hall g
  · rintro ⟨hfree, a, ha, hall⟩ g
    by_cases hg : g = f
    · subst hg
      have hmore := hall g
      rw [Draft.get_set_self] at hmore
      rw [valuesOf_cons_self h]
      exact filled_cons.2 ⟨hfree, a, ha, hmore⟩
    · have hmore := hall g
      rw [Draft.get_set_of_ne a hg] at hmore
      rw [hother hg]
      exact hmore

/-- One pass over the members fills every field by its own members, whatever stands between them. -/
theorem foldlM_take_eq_ok (hv : ∀ m ∈ ms, IsValue m.value) (hk : ∀ m ∈ ms, (string? m.key).isSome) :
    ms.foldlM Draft.take d = .ok e ↔ FilledBy d ms e := by
  induction ms generalizing d with
  | nil =>
    have hnil : FilledBy d [] e ↔ ∀ f, e.get f = d.get f := forall_congr' fun f => filled_nil
    rw [hnil]
    constructor
    · intro h f
      rw [Except.ok.inj h]
    · intro h
      rw [Draft.ext_get h]
      rfl
  | cons m ms ih =>
    have hstep : (m :: ms).foldlM Draft.take d = .ok e ↔
        ∃ d', d.take m = .ok d' ∧ FilledBy d' ms e := by
      have hmore (d' : Draft) : ms.foldlM Draft.take d' = .ok e ↔ FilledBy d' ms e :=
        ih (fun n hn => hv n (List.mem_cons_of_mem _ hn)) fun n hn => hk n (List.mem_cons_of_mem _ hn)
      rw [List.foldlM_cons]
      refine bind_eq_ok.trans ?_
      simp only [hmore]
    rw [hstep]
    by_cases hknown : isKnown m = true
    · obtain ⟨f, hf⟩ := isKnown_iff.1 hknown
      simp only [take_eq_ok (hv m List.mem_cons_self) hf, filledBy_cons_field hf]
      constructor
      · rintro ⟨d', ⟨hfree, a, ha, rfl⟩, hall⟩
        exact ⟨hfree, a, ha, hall⟩
      · rintro ⟨hfree, a, ha, hall⟩
        exact ⟨_, ⟨hfree, a, ha, rfl⟩, hall⟩
    · rw [take_other (hk m List.mem_cons_self) hknown, filledBy_cons_other hknown]
      simp

end Telemetry.Wire
