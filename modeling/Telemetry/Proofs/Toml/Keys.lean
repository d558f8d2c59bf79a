/-
Which entries go together. An entry can be made where the ones before it were made if and only if it clashes
with none of them: neither key is the beginning of the other (`isSome_insert_after`). So whether entries can be
made one after another does not depend on their order (`isSome_insertAll`).
-/
import Telemetry.Proofs.Toml.Document

namespace Telemetry.Toml

/-- The parts of the key of an entry. -/
def Entry.keys (e : Entry) : List String := e.path ++ [e.key]

/-- Two keys of which one is the beginning of the other. -/
def Clash (a b : List String) : Prop := a <+: b ∨ b <+: a

instance (a b : List String) : Decidable (Clash a b) := inferInstanceAs (Decidable (_ ∨ _))

/-- No entry is where another one is, or inside it. -/
def Compatible (es : List Entry) : Prop := es.Pairwise fun a b => ¬ Clash a.keys b.keys

theorem Clash.symm {a b : List String} (h : Clash a b) : Clash b a := Or.symm h

theorem Compatible.perm {es es' : List Entry} (h : Compatible es) (p : es.Perm es') : Compatible es' :=
  (p.pairwise_iff fun hab hba => hab hba.symm).1 h

@[simp] theorem clash_cons_self (k : String) (a b : List String) : Clash (k :: a) (k :: b) ↔ Clash a b := by
  simp [Clash]

theorem not_clash_cons {k k' : String} (h : k ≠ k') (a b : List String) : ¬ Clash (k :: a) (k' :: b) := by
  simp [Clash, List.cons_prefix_cons, h, h.symm]

@[simp] theorem clash_nil_left (a : List String) : Clash [] a := .inl List.nil_prefix

@[simp] theorem clash_nil_right (a : List String) : Clash a [] := .inr List.nil_prefix

namespace Entries

/-! ## Values under keys -/

variable {es : Entries} {key k : String} {v w : Value}

theorem get?_cons (k : String) (v : Value) (es : Entries) (key : String) :
    get? ((k, v) :: es) key = if key = k then some v else es.get? key := by
  unfold get?
  rw [List.lookup_cons]
  by_cases same : key = k
  · rw [if_pos same, beq_iff_eq.2 same]
  · rw [if_neg same, beq_false_of_ne same]

theorem get?_snoc (es : Entries) (key : String) (v : Value) (k : String) :
    get? (es ++ [(key, v)]) k = (es.get? k).or (if k = key then some v else none) := by
  induction es with
  | nil => exact get?_cons key v [] k
  | cons x es ih =>
    rw [List.cons_append, get?_cons, get?_cons, ih]
    split <;> rfl

theorem put_of_get?_eq_none (h : es.get? key = none) (v : Value) : put key v es = es ++ [(key, v)] := by
  induction es with
  | nil => rfl
  | cons x es ih =>
    rw [get?_cons] at h
    split at h
    · cases h
    · rename_i other
      rw [put, if_neg (Ne.symm other), ih h]
      rfl

theorem get?_put (key : String) (v : Value) (es : Entries) (k : String) :
    (put key v es).get? k = if k = key then some v else es.get? k := by
  induction es with
  | nil => exact get?_cons key v [] k
  | cons x es ih =>
    rw [put]
    split
    · rename_i same
      rw [get?_cons, get?_cons, same]
      split <;> rfl
    · rename_i other
      rw [get?_cons, get?_cons, ih]
      split
      · rename_i here
        rw [if_neg (here ▸ other)]
      · rfl

/-! ## One entry after another -/

/-- Makes an entry in the table that a key leads to. -/
def place (bare : Bool) (key : String) (v : Value) (origin : Origin) (inner : Entries) : Option (Entries × Unit) :=
  if (origin == .dotted) == bare || (inner.get? key).isSome then none
  else some (inner ++ [(key, v)], ())

theorem insert_eq (path : List String) (key : String) (v : Value) (es : Entries) :
    insert path key v es = (visit true (place path.isEmpty key v) path .header es).map (·.1) := rfl

variable {β : Type} {f : Origin → Entries → Option (Entries × β)} {path : List String} {origin : Origin}

/-- On the way to a table it matters only what is under the first part of the key. -/
def enter (f : Origin → Entries → Option (Entries × β)) (path : List String) : Option Value → Option (Value × β)
  | none => (visit true f path .dotted []).map fun (inner, b) => (.table .dotted inner, b)
  | some (.table origin inner) =>
    if origin = .inline || !isOpenToDots origin then none
    else (visit true f path origin inner).map fun (inner, b) => (.table origin inner, b)
  | some (.tables elements) => elements.getLast?.bind fun last =>
    (visit true f path .header last).map fun (last, b) => (.tables (elements.dropLast ++ [last]), b)
  | some _ => none

theorem visit_cons (f : Origin → Entries → Option (Entries × β)) (k : String) (path : List String) (origin : Origin)
    (es : Entries) : visit true f (k :: path) origin es =
      (enter f path (es.get? k)).map fun (v, b) => (es.put k v, b) := by
  rw [visit]
  split
  · rename_i h
    rw [h]
    cases inner : visit true f path .dotted [] <;> simp [enter, inner]
  · rename_i h
    rw [h]
    simp only [enter, Bool.true_and]
    split
    · rfl
    · simp only [Option.bind_eq_bind, Option.pure_def, Option.map_eq_bind, Option.bind_assoc, Option.bind_some,
        Function.comp_def]
  · rename_i elements h
    rw [h]
    simp only [enter, Option.bind_eq_bind, Option.pure_def, Option.map_eq_bind, Option.bind_assoc, Option.bind_some,
      Function.comp_def]
  · rename_i v noTable noTables h
    rw [h]
    cases v with
    | table => exact absurd rfl (noTable _ _)
    | tables => exact absurd rfl (noTables _)
    | _ => rfl

theorem enter_of_isClosed {v : Value} (closed : v.IsClosed) : enter f path (some v) = none := by
  cases v with
  | table o inner =>
    cases closed
    rfl
  | tables => exact closed.elim
  | _ => rfl

section

variable {bare bare' : Bool} {key key' : String} {v v' : Value} {path' : List String} {es es' : Entries}

theorem place_eq_some (h : place bare key v origin es = some (es', ())) :
    (origin == .dotted) ≠ bare ∧ es.get? key = none ∧ es' = es ++ [(key, v)] := by
  obtain ⟨fits, he⟩ := Option.ite_none_left_eq_some.1 h
  cases he
  rw [Bool.or_eq_true, not_or] at fits
  exact ⟨fun same => fits.1 (beq_iff_eq.2 same), by simpa using fits.2, rfl⟩

theorem isSome_place : (place bare key v origin es).isSome ↔ (origin == .dotted) ≠ bare ∧ es.get? key = none := by
  unfold place
  split
  · rename_i h
    obtain h | h := Bool.or_eq_true _ _ ▸ h
    · simp [beq_iff_eq.1 h]
    · simp [Option.isSome_iff_ne_none.1 h]
  · rename_i h
    rw [Bool.or_eq_true, not_or] at h
    simpa using h

/-- Where an entry was made, another can be made if it could be made before and does not clash with it. -/
theorem isSome_visit_after (closed : v.IsClosed)
    (h : visit true (place bare key v) path origin es = some (es', ())) :
    (visit true (place bare' key' v') path' origin es').isSome ↔
      (visit true (place bare' key' v') path' origin es).isSome ∧ ¬ Clash (path ++ [key]) (path' ++ [key']) := by
  induction path generalizing origin es es' path' with
  | nil =>
    obtain ⟨-, free, rfl⟩ := place_eq_some h
    cases path' with
    | nil =>
      simp only [visit, isSome_place, get?_snoc]
      by_cases same : key' = key
      · simp [same, free]
      · simp [same, not_clash_cons (Ne.symm same)]
    | cons k path' =>
      simp only [visit_cons, Option.isSome_map, get?_snoc]
      by_cases same : k = key
      · simp [same, free, enter_of_isClosed closed]
      · simp [same, not_clash_cons (Ne.symm same)]
  | cons k path ih =>
    rw [visit_cons] at h
    obtain ⟨⟨w, u⟩, hw, he⟩ := Option.map_eq_some_iff.1 h
    cases he
    cases path' with
    | nil =>
      simp only [visit, isSome_place, get?_put, List.cons_append, List.nil_append]
      by_cases same : key' = k
      · simp [same]
      · simp [same, not_clash_cons (Ne.symm same)]
    | cons k' path' =>
      simp only [visit_cons, Option.isSome_map, get?_put, List.cons_append]
      by_cases same : k' = k
      · subst same
        rw [if_pos rfl, clash_cons_self]
        -- What was under the first part of the keys is gone on with in both cases.
        unfold enter at hw
        split at hw
        · rename_i there
          obtain ⟨⟨inner, u⟩, hinner, he⟩ := Option.map_eq_some_iff.1 hw
          cases he
          have isOpen : ¬ (decide (Origin.dotted = .inline) || !isOpenToDots .dotted) = true := by decide
          simp only [enter, there, if_neg isOpen, Option.isSome_map]
          exact ih hinner
        · rename_i o inner there
          obtain ⟨isOpen, hw⟩ := Option.ite_none_left_eq_some.1 hw
          obtain ⟨⟨inner', u⟩, hinner, he⟩ := Option.map_eq_some_iff.1 hw
          cases he
          simp only [enter, there, if_neg isOpen, Option.isSome_map]
          exact ih hinner
        · rename_i elements there
          obtain ⟨last, hlast, hw⟩ := Option.bind_eq_some_iff.1 hw
          obtain ⟨⟨inner, u⟩, hinner, he⟩ := Option.map_eq_some_iff.1 hw
          cases he
          simp only [enter, there, hlast, List.getLast?_concat, Option.bind_some, Option.isSome_map]
          exact ih hinner
        · cases hw
      · simp [same, not_clash_cons (Ne.symm same)]

/-- In a table that is made for it an entry can be made. -/
theorem isSome_visit_new (path : List String) (key : String) (v : Value) :
    (visit true (place false key v) path .dotted []).isSome := by
  induction path with
  | nil => exact isSome_place.2 ⟨by decide, rfl⟩
  | cons k path ih =>
    rw [visit_cons, Option.isSome_map]
    exact Option.isSome_map.trans ih

theorem isSome_insert_nil (path : List String) (key : String) (v : Value) : (insert path key v []).isSome := by
  rw [insert_eq, Option.isSome_map]
  cases path with
  | nil => exact isSome_place.2 ⟨by decide, rfl⟩
  | cons k path =>
    rw [visit_cons, Option.isSome_map]
    exact Option.isSome_map.trans (isSome_visit_new path key v)

theorem isSome_insert_after (path' : List String) (key' : String) (v' : Value) (closed : v.IsClosed)
    (h : insert path key v es = some es') : (insert path' key' v' es').isSome ↔
      (insert path' key' v' es).isSome ∧ ¬ Clash (path ++ [key]) (path' ++ [key']) := by
  rw [insert_eq] at h
  obtain ⟨⟨es', u⟩, hvisit, he⟩ := Option.map_eq_some_iff.1 h
  cases he
  simp only [insert_eq, Option.isSome_map]
  exact isSome_visit_after closed hvisit

end

/-! ## All entries -/

theorem isSome_insertAll_of {es : List Entry} (closed : ∀ e ∈ es, e.value.IsClosed) (root : Entries) :
    (root.insertAll es).isSome ↔ (∀ e ∈ es, (insert e.path e.key e.value root).isSome) ∧ Compatible es := by
  induction es generalizing root with
  | nil => simp [insertAll, Compatible]
  | cons e es ih =>
    rw [List.forall_mem_cons] at closed
    have step : root.insertAll (e :: es) = (insert e.path e.key e.value root).bind fun root => root.insertAll es :=
      List.foldlM_cons ..
    rw [step, List.forall_mem_cons]
    cases h : insert e.path e.key e.value root with
    | none => simp
    | some root' =>
      have after (e' : Entry) := isSome_insert_after e'.path e'.key e'.value closed.1 h
      rw [Option.bind_some, ih closed.2]
      simp only [after, Compatible, List.pairwise_cons, Option.isSome_some, true_and]
      exact ⟨fun ⟨here, later⟩ => ⟨fun e' he' => (here e' he').1, fun e' he' => (here e' he').2, later⟩,
        fun ⟨here, first, later⟩ => ⟨fun e' he' => ⟨here e' he', first e' he'⟩, later⟩⟩

/-- Entries can be made one after another if no two of them clash. -/
theorem isSome_insertAll {es : List Entry} (closed : ∀ e ∈ es, e.value.IsClosed) :
    (insertAll [] es).isSome ↔ Compatible es := by
  rw [isSome_insertAll_of closed]
  exact and_iff_right fun e _ => isSome_insert_nil e.path e.key e.value

/-! ## What there is at the top -/

end Entries

/-- A value that is made of entries. -/
def Value.IsNested : Value → Prop
  | .table _ _ => True
  | .tables _ => True
  | _ => False

/-- The first part of the key of an entry. -/
def Entry.top (e : Entry) : String := e.path.headD e.key

/-- What an entry puts under the first part of its key: its value, or a table. -/
def Entry.face (e : Entry) : Value := if e.path = [] then e.value else .table .dotted []

namespace Entries

/-- An entry goes behind the others with its value, or with a table that is made for it, or it goes into what is there
already. -/
theorem insert_cases {e : Entry} {root root' : Entries} (h : insert e.path e.key e.value root = some root') :
    e.path = [] ∧ root' = root ++ [(e.top, e.face)] ∨
    e.path ≠ [] ∧ (∃ origin inner, root' = root ++ [(e.top, .table origin inner)]) ∨
    e.path ≠ [] ∧ ∃ w w', root.get? e.top = some w ∧ root' = root.put e.top w' ∧ w.IsNested ∧ w'.IsNested ∧
      w'.describe = w.describe := by
  obtain ⟨path, key, v⟩ := e
  rw [insert_eq] at h
  obtain ⟨⟨root', u⟩, hvisit, he⟩ := Option.map_eq_some_iff.1 h
  cases he
  cases path with
  | nil => exact .inl ⟨rfl, (place_eq_some hvisit).2.2⟩
  | cons k path =>
    rw [visit_cons] at hvisit
    obtain ⟨⟨w', u⟩, hw, he⟩ := Option.map_eq_some_iff.1 hvisit
    cases he
    refine .inr ?_
    unfold enter at hw
    split at hw
    · rename_i free
      obtain ⟨x, -, he⟩ := Option.map_eq_some_iff.1 hw
      cases he
      exact .inl ⟨nofun, _, _, put_of_get?_eq_none free _⟩
    · rename_i there
      obtain ⟨x, -, he⟩ := Option.map_eq_some_iff.1 (Option.ite_none_left_eq_some.1 hw).2
      cases he
      exact .inr ⟨nofun, _, _, there, rfl, trivial, trivial, rfl⟩
    · rename_i there
      obtain ⟨last, -, hw⟩ := Option.bind_eq_some_iff.1 hw
      obtain ⟨x, -, he⟩ := Option.map_eq_some_iff.1 hw
      cases he
      exact .inr ⟨nofun, _, _, there, rfl, trivial, trivial, rfl⟩
    · cases hw

end Entries

end Telemetry.Toml
