/-
What settings come to. A value is taken by a setting if and only if it is a text, or a number in its range; all
settings go by the same two rules (`read_of_fits`, `read_of_unfit`). From a table of entries, the first value that
does not fit is what is complained about, wherever it comes from (`readAll_of_unfit`); without one, a setting is
what its entry says, or what it was before (`exists_readAll`).
-/
import Telemetry.Config
import Telemetry.Proofs.Toml.Keys

namespace Telemetry.Config

open Toml (Entries Compatible)

/-! ## Single values -/

/-- What a setting is in a configuration. -/
inductive Datum where
  | text (s : String)
  | number (n : Nat)
  | absent
deriving DecidableEq, Repr

/-- What a value says. -/
def Datum.of : Toml.Value → Datum
  | .text s => text s
  | .integer n => number n.toInt.toNat
  | _ => absent

namespace Setting

/-- What the value of a setting has to be. -/
def expected : Setting → Expected
  | serverAddress | key => .text
  | batchSize | rateLimit => .count
  | maxRetries => .small
  | pollSeconds | reportSeconds | retryInitialMillis | retryIncrementMillis | timeoutSeconds => .number

/-- What a setting is when nothing is said about it. -/
def standard : Setting → Datum
  | serverAddress | key => .absent
  | pollSeconds | rateLimit => .number 2
  | reportSeconds | batchSize | timeoutSeconds => .number 10
  | maxRetries => .number 3
  | retryInitialMillis => .number 1000
  | retryIncrementMillis => .number 2000

end Setting

namespace Expected

/-- The numbers that are meant are below. -/
def bound : Expected → Nat
  | small => 0x10000
  | _ => 0x10000000000000000

/-- The values that are meant. -/
inductive Fits : Expected → Toml.Value → Prop where
  | text (s : String) : Fits text (.text s)
  | number {x : Expected} {n : Int64} (numeric : x ≠ text) (low : 0 ≤ n.toInt) (high : n.toInt < x.bound) :
    Fits x (.integer n)

/-- What is said about a value that is not meant. -/
def complaint (x : Expected) : Toml.Value → Complaint
  | .integer n => if x = text then .wrongType (Toml.Value.integer n).describe x else .outOfRange n x
  | v => .wrongType v.describe x

end Expected

/-- A setting of a configuration. -/
def datum (c : Config) : Setting → Datum
  | .serverAddress => .text c.address.text
  | .pollSeconds => .number c.pollSeconds.toNat
  | .reportSeconds => .number c.reportSeconds.toNat
  | .batchSize => .number c.batchSize.toNat
  | .rateLimit => .number c.rateLimit.toNat
  | .maxRetries => .number c.maxRetries.toNat
  | .retryInitialMillis => .number c.retryInitialMillis.toNat
  | .retryIncrementMillis => .number c.retryIncrementMillis.toNat
  | .timeoutSeconds => .number c.timeoutSeconds.toNat
  | .key => c.key.elim .absent .text

/-- A configuration is nothing but its settings. -/
theorem datum_injective {c c' : Config} (h : ∀ s, c.datum s = c'.datum s) : c = c' := by
  obtain ⟨⟨address⟩, poll, report, batch, rate, retries, initial, increment, timeout, key⟩ := c
  obtain ⟨⟨address'⟩, poll', report', batch', rate', retries', initial', increment', timeout', key'⟩ := c'
  have number {n m : Nat} (h : Datum.number n = .number m) : n = m := Datum.number.inj h
  obtain rfl := Datum.text.inj (h .serverAddress)
  obtain rfl := UInt64.toNat_inj.1 (number (h .pollSeconds))
  obtain rfl := UInt64.toNat_inj.1 (number (h .reportSeconds))
  obtain rfl := UInt64.toNat_inj.1 (number (h .batchSize))
  obtain rfl := UInt64.toNat_inj.1 (number (h .rateLimit))
  obtain rfl := UInt16.toNat_inj.1 (number (h .maxRetries))
  obtain rfl := UInt64.toNat_inj.1 (number (h .retryInitialMillis))
  obtain rfl := UInt64.toNat_inj.1 (number (h .retryIncrementMillis))
  obtain rfl := UInt64.toNat_inj.1 (number (h .timeoutSeconds))
  have same : key.elim Datum.absent .text = key'.elim .absent .text := h .key
  cases key <;> cases key' <;> cases same <;> rfl

section

variable {x : Expected} {v : Toml.Value}

theorem readText_of_fits (h : Expected.text.Fits v) : ∃ s, readText v = .ok s ∧ Datum.of v = .text s := by
  cases h with
  | text s => exact ⟨s, rfl, rfl⟩
  | number numeric => exact absurd rfl numeric

theorem readText_of_unfit (h : ¬ Expected.text.Fits v) : readText v = .error (Expected.text.complaint v) := by
  cases v with
  | text s => exact absurd (.text s) h
  | _ => rfl

theorem readNumber_of_fits (numeric : x ≠ .text) (h : x.Fits v) :
    ∃ n, readNumber x x.bound v = .ok n ∧ Datum.of v = .number n ∧ n < x.bound := by
  cases h with
  | text s => exact absurd rfl numeric
  | @number _ n _ low high =>
    refine ⟨n.toInt.toNat, ?_, rfl, ?_⟩
    · rw [readNumber, if_pos ⟨low, high⟩]
    · omega

theorem readNumber_of_unfit (numeric : x ≠ .text) (h : ¬ x.Fits v) :
    readNumber x x.bound v = .error (x.complaint v) := by
  cases v with
  | integer n =>
    have outside : ¬ (0 ≤ n.toInt ∧ n.toInt < x.bound) := fun inside => h (.number numeric inside.1 inside.2)
    rw [readNumber, if_neg outside, Expected.complaint, if_neg numeric]
  | _ => rfl

theorem readLong_of_fits (numeric : x ≠ .text) (long : x.bound = 0x10000000000000000) (h : x.Fits v) :
    ∃ n : UInt64, readLong x v = .ok n ∧ Datum.of v = .number n.toNat := by
  obtain ⟨n, hread, hof, below⟩ := readNumber_of_fits numeric h
  rw [long] at hread below
  refine ⟨.ofNat n, congrArg (Except.map UInt64.ofNat) hread, ?_⟩
  rw [hof, UInt64.toNat_ofNat_of_lt' below]

theorem readShort_of_fits (h : Expected.small.Fits v) :
    ∃ n : UInt16, readShort .small v = .ok n ∧ Datum.of v = .number n.toNat := by
  obtain ⟨n, hread, hof, below⟩ := readNumber_of_fits (by decide) h
  refine ⟨.ofNat n, congrArg (Except.map UInt16.ofNat) hread, ?_⟩
  rw [hof, UInt16.toNat_ofNat_of_lt' below]

theorem readLong_of_unfit (numeric : x ≠ .text) (long : x.bound = 0x10000000000000000) (h : ¬ x.Fits v) :
    readLong x v = .error (x.complaint v) := by
  have hread := readNumber_of_unfit numeric h
  rw [long] at hread
  exact congrArg (Except.map UInt64.ofNat) hread

theorem readShort_of_unfit (h : ¬ Expected.small.Fits v) : readShort .small v = .error (Expected.small.complaint v) :=
  congrArg (Except.map UInt16.ofNat) (readNumber_of_unfit (by decide) h)

end

namespace Draft

/-- A setting as far as it was read. -/
def datum (d : Draft) : Setting → Datum
  | .serverAddress => d.address.elim .absent fun a => .text a.text
  | s => d.others.datum s

variable {d : Draft} {s : Setting} {v : Toml.Value}

/-- A value that fits becomes the setting, and leaves the other settings as they are. -/
theorem read_of_fits (d : Draft) (h : s.expected.Fits v) :
    ∃ d', d.read s v = .ok d' ∧ d'.datum s = .of v ∧ ∀ s', s' ≠ s → d'.datum s' = d.datum s' := by
  cases s
  case serverAddress | key =>
    obtain ⟨t, hread, hof⟩ := readText_of_fits h
    refine ⟨_, congrArg (Except.map _) hread, hof.symm, fun s' other => ?_⟩
    cases s' <;> first | rfl | exact absurd rfl other
  case maxRetries =>
    obtain ⟨n, hread, hof⟩ := readShort_of_fits h
    refine ⟨_, congrArg (Except.map _) hread, hof.symm, fun s' other => ?_⟩
    cases s' <;> first | rfl | exact absurd rfl other
  case batchSize | rateLimit =>
    obtain ⟨n, hread, hof⟩ := readLong_of_fits (x := .count) (by decide) rfl h
    refine ⟨_, congrArg (Except.map _) hread, hof.symm, fun s' other => ?_⟩
    cases s' <;> first | rfl | exact absurd rfl other
  all_goals
    obtain ⟨n, hread, hof⟩ := readLong_of_fits (x := .number) (by decide) rfl h
    refine ⟨_, congrArg (Except.map _) hread, hof.symm, fun s' other => ?_⟩
    cases s' <;> first | rfl | exact absurd rfl other

theorem read_of_unfit (d : Draft) (h : ¬ s.expected.Fits v) : d.read s v = .error (s.expected.complaint v) := by
  cases s
  case serverAddress | key => exact congrArg (Except.map _) (readText_of_unfit h)
  case maxRetries => exact congrArg (Except.map _) (readShort_of_unfit h)
  case batchSize | rateLimit => exact congrArg (Except.map _) (readLong_of_unfit (x := .count) (by decide) rfl h)
  all_goals exact congrArg (Except.map _) (readLong_of_unfit (x := .number) (by decide) rfl h)

/-! ## Tables of values -/

variable {es es' : Entries} {k : String} {w w' : Toml.Value}

theorem readAll_append (d : Draft) (es es' : Entries) :
    d.readAll (es ++ es') = (d.readAll es).bind (·.readAll es') := by
  induction es generalizing d with
  | nil => rfl
  | cons x es ih =>
    rw [List.cons_append, readAll, readAll]
    split
    · exact ih d
    · split
      · exact ih _
      · rfl

/-- Other names are passed over. -/
theorem readAll_filter (d : Draft) (es : Entries) :
    d.readAll (es.filter fun x => (Setting.ofWord? x.1).isSome) = d.readAll es := by
  induction es generalizing d with
  | nil => rfl
  | cons x es ih =>
    rw [readAll]
    split
    · rename_i unknown
      rw [List.filter_cons_of_neg (by simp [unknown])]
      exact ih d
    · rename_i s known
      rw [List.filter_cons_of_pos (by simp [known]), readAll, known]
      simp only
      split
      · exact ih _
      · rfl

theorem not_fits_of_isNested {x : Expected} (h : w.IsNested) : ¬ x.Fits w := by
  rintro (_ | _) <;> exact h

/-- What is made of entries fits no setting, and it does not matter which it is. -/
theorem read_of_isNested (d : Draft) (s : Setting) (h : w.IsNested) :
    d.read s w = .error (.wrongType w.describe s.expected) := by
  rw [read_of_unfit d (not_fits_of_isNested h)]
  cases w with
  | table | tables => rfl
  | _ => exact h.elim

theorem readAll_singleton (d : Draft) (k : String) (v : Toml.Value) :
    d.readAll [(k, v)] = match Setting.ofWord? k with
      | none => .ok d
      | some s => d.read s v := by
  unfold readAll
  cases Setting.ofWord? k with
  | none => rfl
  | some s =>
    dsimp only
    cases d.read s v <;> rfl

theorem readAll_put (d : Draft) (there : es.get? k = some w) (nested : w.IsNested) (nested' : w'.IsNested)
    (same : w'.describe = w.describe) : d.readAll (es.put k w') = d.readAll es := by
  induction es generalizing d with
  | nil => cases there
  | cons x es ih =>
    obtain ⟨k', v⟩ := x
    rw [Entries.get?_cons] at there
    rw [Entries.put]
    split at there
    · rename_i here
      cases there
      subst here
      rw [if_pos rfl, readAll, readAll]
      split
      · rfl
      · rw [read_of_isNested _ _ nested', read_of_isNested _ _ nested, same]
    · rename_i other
      rw [if_neg (Ne.symm other), readAll, readAll]
      split
      · exact ih d there
      · split
        · exact ih _ there
        · rfl

/-- Where what is made of entries is not complained about, its name means nothing. -/
theorem ofWord?_of_readAll {d d' : Draft} (h : d.readAll es = .ok d') (there : es.get? k = some w)
    (nested : w.IsNested) : Setting.ofWord? k = none := by
  induction es generalizing d with
  | nil => cases there
  | cons x es ih =>
    obtain ⟨k', v⟩ := x
    rw [Entries.get?_cons] at there
    rw [readAll] at h
    split at there
    · rename_i here
      cases there
      subst here
      split at h
      · assumption
      · rw [read_of_isNested _ _ nested] at h
        cases h
    · split at h
      · exact ih h there
      · split at h
        · exact ih h there
        · cases h

/-! ## Entries -/

/-- What entries show at the top, one by one. -/
def shown (es : List Toml.Entry) : Entries := es.map fun e => (e.top, e.face)

theorem readAll_insert {e : Toml.Entry} {root root' : Entries} (d : Draft)
    (h : Entries.insert e.path e.key e.value root = some root') :
    d.readAll root' = d.readAll (root ++ [(e.top, e.face)]) := by
  obtain ⟨-, rfl⟩ | ⟨dotted, origin, inner, rfl⟩ | ⟨dotted, w, w', there, rfl, nested, nested', same⟩ :=
    Entries.insert_cases h
  · rfl
  · rw [readAll_append, readAll_append, Toml.Entry.face, if_neg dotted]
    refine congrArg (Except.bind _) (funext fun d' => ?_)
    rw [readAll_singleton, readAll_singleton]
    split
    · rfl
    · rename_i s _
      have alike (w : Toml.Value) (nested : w.IsNested) := read_of_isNested d' s nested
      rw [alike (.table origin inner) trivial, alike (.table .dotted []) trivial]
      rfl
  · rw [readAll_append, readAll_put d there nested nested' same]
    cases hread : d.readAll root with
    | error c => rfl
    | ok d' =>
      show _ = d'.readAll _
      rw [readAll_singleton, ofWord?_of_readAll hread there nested]

/-- Entries that were made one after another are read as what they show. -/
theorem readAll_insertAll {es : List Toml.Entry} {root root' : Entries} (d : Draft) (h : root.insertAll es = some root') :
    d.readAll root' = d.readAll (root ++ shown es) := by
  induction es generalizing root with
  | nil =>
    cases h
    rw [shown, List.map_nil, List.append_nil]
  | cons e es ih =>
    obtain ⟨root₁, hinsert, h⟩ := Option.bind_eq_some_iff.1 ((List.foldlM_cons ..).symm.trans h)
    rw [ih h, readAll_append, readAll_insert d hinsert, ← readAll_append, List.append_assoc]
    rfl

end Draft

/-- The setting that an entry is about. -/
def Setting.about? (e : Toml.Entry) : Option Setting := ofWord? e.top

/-- An entry that is about no setting, or says what fits. -/
def IsFit (e : Toml.Entry) : Prop := ∀ s, Setting.about? e = some s → s.expected.Fits e.face

/-- Two entries that fit the same setting have the same key. -/
theorem clash_of_about {e e' : Toml.Entry} {s : Setting} (fit : IsFit e) (fit' : IsFit e')
    (h : Setting.about? e = some s) (h' : Setting.about? e' = some s) : Toml.Clash e.keys e'.keys := by
  have written {e : Toml.Entry} (fit : IsFit e) (h : Setting.about? e = some s) : e.keys = [s.word] := by
    have word : s.word = e.top := by simpa using List.find?_some h
    have bare : e.path = [] := by
      have fits := fit s h
      unfold Toml.Entry.face at fits
      split at fits
      · assumption
      · exact absurd fits (Draft.not_fits_of_isNested trivial)
    rw [word, Toml.Entry.keys, Toml.Entry.top, bare]
    rfl
  rw [written fit h, written fit' h']
  exact .inl (List.prefix_refl _)

namespace Draft

/-- Entries that fit are read, and then a setting is what its entry says, or what it was before. -/
theorem exists_readAll {es : List Toml.Entry} (compatible : Compatible es) (fit : ∀ e ∈ es, IsFit e) (d : Draft) :
    ∃ d', d.readAll (shown es) = .ok d' ∧ ∀ s,
      (∀ e ∈ es, Setting.about? e = some s → d'.datum s = .of e.face) ∧
      ((∀ e ∈ es, Setting.about? e ≠ some s) → d'.datum s = d.datum s) := by
  induction es generalizing d with
  | nil => exact ⟨d, rfl, fun s => ⟨nofun, fun _ => rfl⟩⟩
  | cons e es ih =>
    rw [List.forall_mem_cons] at fit
    obtain ⟨apart, compatible⟩ := List.pairwise_cons.1 compatible
    cases known : Setting.about? e with
    | none =>
      obtain ⟨d', hread, settled⟩ := ih compatible fit.2 d
      refine ⟨d', ?_, fun s => ⟨List.forall_mem_cons.2 ⟨fun h => ?_, (settled s).1⟩, fun h => ?_⟩⟩
      · rw [shown, List.map_cons, readAll, show Setting.ofWord? e.top = none from known]
        exact hread
      · cases known.symm.trans h
      · exact (settled s).2 (List.forall_mem_cons.1 h).2
    | some s₀ =>
      obtain ⟨d₁, hd₁, said, kept⟩ := read_of_fits d (fit.1 s₀ known)
      obtain ⟨d', hread, settled⟩ := ih compatible fit.2 d₁
      refine ⟨d', ?_, fun s => ⟨List.forall_mem_cons.2 ⟨fun h => ?_, (settled s).1⟩, fun h => ?_⟩⟩
      · rw [shown, List.map_cons, readAll, show Setting.ofWord? e.top = some s₀ from known]
        simp only [hd₁]
        exact hread
      · cases known.symm.trans h
        -- No later entry changes the setting again: it would have the same key.
        refine ((settled s₀).2 fun e' he' h' => ?_).trans said
        exact apart e' he' (clash_of_about fit.1 (fit.2 e' he') known h')
      · rw [List.forall_mem_cons, known] at h
        exact ((settled s).2 h.2).trans (kept s fun same => h.1 (congrArg some same.symm))

/-- What is complained about is the first entry that does not fit. -/
theorem readAll_of_unfit {before after : List Toml.Entry} {e : Toml.Entry} {s : Setting}
    (compatible : Compatible (before ++ e :: after)) (fit : ∀ e ∈ before, IsFit e)
    (known : Setting.about? e = some s) (unfit : ¬ s.expected.Fits e.face) (d : Draft) :
    d.readAll (shown (before ++ e :: after)) = .error (s.expected.complaint e.face) := by
  obtain ⟨d', hread, -⟩ := exists_readAll (List.pairwise_append.1 compatible).1 fit d
  have known : Setting.ofWord? e.top = some s := known
  unfold shown at hread ⊢
  rw [List.map_append, readAll_append, hread, List.map_cons]
  show d'.readAll _ = _
  rw [readAll, known]
  simp only [read_of_unfit d' unfit]

end Draft

end Telemetry.Config
