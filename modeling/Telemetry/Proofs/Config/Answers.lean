/-
What comes of a document of entries (`Answers`). First the document has to be one, with no two entries that clash;
then the first entry that does not fit its setting is complained about; then an address that is missing; then
the first check that fails; and if there is nothing to complain about, every setting is what its entry says, or what
it is by itself. This is all that is ever answered (`read_answers`): other entries do not matter, and the order of
the entries does not matter to a configuration, only to a complaint.
-/
import Telemetry.Proofs.Config.Endpoint
import Telemetry.Proofs.Config.Settings

namespace Telemetry.Config

open Toml (Entries Compatible Holds HasHeader Block joined)

namespace Nonsense

/-- Whether a configuration makes no sense in this way. -/
def Applies (c : Config) : Nonsense → Prop
  | blankAddress => Text.IsBlanks c.address.text.toList
  | noPollInterval => c.pollSeconds = 0
  | noReportInterval => c.reportSeconds = 0

/-- The place among the checks. -/
def rank : Nonsense → Nat
  | blankAddress => 0
  | noPollInterval => 1
  | noReportInterval => 2

end Nonsense

variable {c c' : Config} {n : Nonsense} {text text' : String} {es es' : List Toml.Entry}

/-- The check that fails is the first one that does. -/
theorem check_eq_error_iff : c.check = .error n ↔
    n.Applies c ∧ ∀ m : Nonsense, m.rank < n.rank → ¬ m.Applies c := by
  have blank : c.address.isBlank = true ↔ Nonsense.blankAddress.Applies c := List.all_eq_true
  have poll : c.pollSeconds = 0 ↔ Nonsense.noPollInterval.Applies c := .rfl
  have report : c.reportSeconds = 0 ↔ Nonsense.noReportInterval.Applies c := .rfl
  have all {p : Nonsense → Prop} : (∀ m, p m) ↔ p .blankAddress ∧ p .noPollInterval ∧ p .noReportInterval :=
    ⟨fun h => ⟨h _, h _, h _⟩, fun ⟨h, h', h''⟩ m => by cases m <;> assumption⟩
  unfold check
  rw [all]
  cases n <;> split_ifs <;> simp_all [Nonsense.rank]

theorem check_eq_ok_iff : c.check = .ok () ↔ ∀ n : Nonsense, ¬ n.Applies c := by
  cases hc : c.check with
  | ok =>
    refine ⟨fun _ n => ?_, fun _ => rfl⟩
    induction hn : n.rank using Nat.strongRecOn generalizing n with
    | ind r ih =>
      intro applies
      cases hc.symm.trans (check_eq_error_iff.2 ⟨applies, fun m hm => ih m.rank (hn ▸ hm) m rfl⟩)
  | error n => exact ⟨nofun, fun h => absurd (check_eq_error_iff.1 hc).1 (h n)⟩

/-- What a setting comes to: what an entry says, or what it is when there is none. -/
inductive Settles (es : List Toml.Entry) (s : Setting) : Datum → Prop where
  | said {e : Toml.Entry} (mem : e ∈ es) (about : Setting.about? e = some s) : Settles es s (.of e.face)
  | standard (absent : ∀ e ∈ es, Setting.about? e ≠ some s) : Settles es s s.standard

/-- The configuration that entries make, all of which fit, and one of which is the address. -/
structure Makes (es : List Toml.Entry) (c : Config) : Prop where
  compatible : Compatible es
  fit : ∀ e ∈ es, IsFit e
  given : ∃ e ∈ es, Setting.about? e = some .serverAddress
  settles : ∀ s, Settles es s (c.datum s)

/-- What is answered to a document of entries. -/
inductive Answers (es : List Toml.Entry) : Except Fault Config → Prop where
  | malformed (clashing : ¬ Compatible es) : Answers es (.error .malformed)
  | unfit {before after : List Toml.Entry} {e : Toml.Entry} {s : Setting} (compatible : Compatible es)
    (split : es = before ++ e :: after) (fit : ∀ e ∈ before, IsFit e) (about : Setting.about? e = some s)
    (unfit : ¬ s.expected.Fits e.face) : Answers es (.error (.unfit (s.expected.complaint e.face)))
  | missing (compatible : Compatible es) (fit : ∀ e ∈ es, IsFit e)
    (absent : ∀ e ∈ es, Setting.about? e ≠ some .serverAddress) :
    Answers es (.error (.unfit (.missing .serverAddress)))
  | senseless {c : Config} {n : Nonsense} (makes : Makes es c) (applies : n.Applies c)
    (first : ∀ m : Nonsense, m.rank < n.rank → ¬ m.Applies c) : Answers es (.error (.senseless n))
  | accepted {c : Config} (makes : Makes es c) (sensible : ∀ n : Nonsense, ¬ n.Applies c) : Answers es (.ok c)

/-! ## Documents of entries -/

/-- What is answered when the settings have been read. -/
def checked : Except Complaint Config → Except Fault Config
  | .error c => .error (.unfit c)
  | .ok config => match config.check with
    | .error n => .error (.senseless n)
    | .ok () => .ok config

theorem checked_of_ok (h : c.check = .ok ()) : checked (.ok c) = .ok c := by simp only [checked, h]

theorem checked_of_error (h : c.check = .error n) : checked (.ok c) = .error (.senseless n) := by
  simp only [checked, h]

section

variable (holds : Holds text es)

include holds

theorem read_of_clashing (clashing : ¬ Compatible es) : read text = .error .malformed := by
  have none : Toml.read? text.toList = none := by
    rw [Toml.read?_of_lists holds, ← Option.not_isSome_iff_eq_none,
      Entries.isSome_insertAll fun e he => holds.isClosed he]
    exact clashing
  rw [read, none]

/-- Entries that do not clash are read as what they show. -/
theorem read_of_compatible (compatible : Compatible es) : read text = checked (ofEntries (Draft.shown es)) := by
  obtain ⟨root, hroot⟩ := Option.isSome_iff_exists.1
    ((Entries.isSome_insertAll fun e he => holds.isClosed he).2 compatible)
  have same : ofEntries root = ofEntries (Draft.shown es) := by
    unfold ofEntries
    rw [Draft.readAll_insertAll {} hroot, List.nil_append]
  rw [read, Toml.read?_of_lists holds, hroot, ← same]
  rfl

end

theorem standard_eq (s : Setting) : Draft.datum {} s = s.standard := by cases s <;> rfl

theorem ofEntries_of_missing (compatible : Compatible es) (fit : ∀ e ∈ es, IsFit e)
    (absent : ∀ e ∈ es, Setting.about? e ≠ some .serverAddress) :
    ofEntries (Draft.shown es) = .error (.missing .serverAddress) := by
  obtain ⟨d, hread, settled⟩ := Draft.exists_readAll compatible fit {}
  have none : d.datum .serverAddress = .absent := (settled .serverAddress).2 absent
  rw [ofEntries, hread]
  cases hd : d.address with
  | none => simp only [hd]
  | some a =>
    rw [Draft.datum, hd] at none
    cases none

/-- Entries that fit make the one configuration that every setting settles for. -/
theorem exists_ofEntries (compatible : Compatible es) (fit : ∀ e ∈ es, IsFit e)
    (given : ∃ e ∈ es, Setting.about? e = some .serverAddress) :
    ∃ c, ofEntries (Draft.shown es) = .ok c ∧ Makes es c ∧ ∀ c', Makes es c' → c' = c := by
  obtain ⟨d, hread, settled⟩ := Draft.exists_readAll compatible fit {}
  obtain ⟨e, he, about⟩ := given
  have address : ∃ a, d.address = some a := by
    have fits := fit e he _ about
    have said := (settled _).1 e he about
    cases hd : d.address with
    | some a => exact ⟨a, rfl⟩
    | none =>
      rw [Draft.datum, hd] at said
      generalize e.face = v at fits said
      cases fits with
      | text => cases said
      | number numeric => exact absurd rfl numeric
  obtain ⟨a, ha⟩ := address
  have datum_eq (s : Setting) : ({ d.others with address := a } : Config).datum s = d.datum s := by
    cases s
    case serverAddress => rw [Draft.datum, ha]; rfl
    all_goals rfl
  refine ⟨{ d.others with address := a }, by rw [ofEntries, hread]; simp only [ha],
    ⟨compatible, fit, ⟨e, he, about⟩, fun s => ?_⟩, fun c' makes => datum_injective fun s => ?_⟩
  · rw [datum_eq]
    by_cases h : ∃ e ∈ es, Setting.about? e = some s
    · obtain ⟨e, he, about⟩ := h
      rw [(settled s).1 e he about]
      exact .said he about
    · have absent : ∀ e ∈ es, Setting.about? e ≠ some s := fun e he about => h ⟨e, he, about⟩
      rw [(settled s).2 absent, standard_eq]
      exact .standard absent
  · rw [datum_eq]
    generalize hx : c'.datum s = x
    cases hx ▸ makes.settles s with
    | said he about => exact ((settled s).1 _ he about).symm
    | standard absent => exact (((settled s).2 absent).trans (standard_eq s)).symm

theorem Makes.ofEntries_eq (makes : Makes es c) : ofEntries (Draft.shown es) = .ok c := by
  obtain ⟨c', hc', -, only⟩ := exists_ofEntries makes.compatible makes.fit makes.given
  rw [hc', only c makes]

/-- There always is an answer. -/
theorem exists_answers (es : List Toml.Entry) : ∃ answer, Answers es answer := by
  classical
  by_cases compatible : Compatible es
  · cases found : es.find? fun e => ¬ IsFit e with
    | some e =>
      obtain ⟨unfit, before, after, split, fit⟩ := List.find?_eq_some_iff_append.1 found
      have unfit : ∃ s, Setting.about? e = some s ∧ ¬ s.expected.Fits e.face := by simpa [IsFit] using unfit
      obtain ⟨s, about, unfit⟩ := unfit
      exact ⟨_, .unfit compatible split (by simpa using fit) about unfit⟩
    | none =>
      have fit : ∀ e ∈ es, IsFit e := by simpa using found
      by_cases given : ∃ e ∈ es, Setting.about? e = some .serverAddress
      · obtain ⟨c, -, makes, -⟩ := exists_ofEntries compatible fit given
        cases hc : c.check with
        | ok => exact ⟨_, .accepted makes (check_eq_ok_iff.1 hc)⟩
        | error n =>
          obtain ⟨applies, first⟩ := check_eq_error_iff.1 hc
          exact ⟨_, .senseless makes applies first⟩
      · exact ⟨_, .missing compatible fit fun e he about => given ⟨e, he, about⟩⟩
  · exact ⟨_, .malformed compatible⟩

theorem Answers.read_eq {answer : Except Fault Config} (holds : Holds text es) (h : Answers es answer) :
    read text = answer := by
  cases h with
  | malformed clashing => exact read_of_clashing holds clashing
  | unfit compatible split fit about unfit =>
    subst split
    rw [read_of_compatible holds compatible, ofEntries, Draft.readAll_of_unfit compatible fit about unfit, checked]
  | missing compatible fit absent =>
    rw [read_of_compatible holds compatible, ofEntries_of_missing compatible fit absent, checked]
  | senseless makes applies first =>
    rw [read_of_compatible holds makes.compatible, makes.ofEntries_eq]
    exact checked_of_error (check_eq_error_iff.2 ⟨applies, first⟩)
  | accepted makes sensible =>
    rw [read_of_compatible holds makes.compatible, makes.ofEntries_eq]
    exact checked_of_ok (check_eq_ok_iff.2 sensible)

theorem read_eq_iff {answer : Except Fault Config} (holds : Holds text es) :
    read text = answer ↔ Answers es answer := by
  refine ⟨?_, Answers.read_eq holds⟩
  rintro rfl
  obtain ⟨answer, h⟩ := exists_answers es
  rwa [h.read_eq holds]

/-! ## What does not matter -/

/-- The entries that are about a setting. -/
def telling (es : List Toml.Entry) : List Toml.Entry := es.filter fun e => (Setting.about? e).isSome

/-- Entries that are about no setting do not matter. -/
theorem read_of_telling (holds : Holds text es) (holds' : Holds text' es') (compatible : Compatible es)
    (compatible' : Compatible es') (same : telling es = telling es') : read text = read text' := by
  have shown_filter (es : List Toml.Entry) : (Draft.shown es).filter (fun x => (Setting.ofWord? x.1).isSome) =
      Draft.shown (telling es) := List.filter_map
  have ofEntries_eq : ofEntries (Draft.shown es) = ofEntries (Draft.shown es') := by
    unfold ofEntries
    rw [← Draft.readAll_filter, ← Draft.readAll_filter {} (Draft.shown es'), shown_filter, shown_filter, same]
  rw [read_of_compatible holds compatible, read_of_compatible holds' compatible', ofEntries_eq]

theorem Settles.perm {s : Setting} {x : Datum} (h : Settles es s x) (p : es.Perm es') : Settles es' s x := by
  cases h with
  | said mem about => exact .said (p.mem_iff.1 mem) about
  | standard absent => exact .standard fun e he => absent e (p.mem_iff.2 he)

theorem Makes.perm (h : Makes es c) (p : es.Perm es') : Makes es' c where
  compatible := h.compatible.perm p
  fit e he := h.fit e (p.mem_iff.2 he)
  given := by
    obtain ⟨e, he, about⟩ := h.given
    exact ⟨e, p.mem_iff.1 he, about⟩
  settles s := (h.settles s).perm p

/-- The order of entries does not matter to a configuration. -/
theorem read_of_perm (holds : Holds text es) (holds' : Holds text' es') (p : es.Perm es') :
    read text = .ok c ↔ read text' = .ok c := by
  rw [read_eq_iff holds, read_eq_iff holds']
  constructor
  · rintro ⟨⟩
    exact .accepted (Makes.perm ‹_› p) ‹_›
  · rintro ⟨⟩
    exact .accepted (Makes.perm ‹_› p.symm) ‹_›

/-- What is answered to any document without headers: to entries, what the order of the complaints says; to
everything else, that it cannot be read. Entries that are about no setting do not change the answer, unless they clash
with others, and neither the order of the entries nor that of the lines changes the configuration. -/
theorem read_answers :
    (∀ text es, Holds text es → ∀ answer, read text = answer ↔ Answers es answer) ∧
    (∀ text : String, ¬ HasHeader (Toml.skipMark text.toList) → (∀ es, ¬ Holds text es) →
      read text = .error .malformed) ∧
    (∀ text es text' es', Holds text es → Holds text' es' → Compatible es → Compatible es' →
      telling es = telling es' → read text = read text') ∧
    (∀ text es text' es', Holds text es → Holds text' es' → es.Perm es' →
      ∀ c, read text = .ok c ↔ read text' = .ok c) ∧
    ∀ blocks blocks' : List Block, blocks.Perm blocks' →
      ∀ c, read (joined blocks) = .ok c ↔ read (joined blocks') = .ok c := by
  refine ⟨fun text es holds answer => read_eq_iff holds, fun text noHeader broken => ?_,
    fun text es text' es' holds holds' => read_of_telling holds holds',
    fun text es text' es' holds holds' p c => read_of_perm holds holds' p, fun blocks blocks' p c => ?_⟩
  · rw [read, Toml.read?_eq_none noHeader broken]
  · exact read_of_perm (Toml.holds_joined blocks) (Toml.holds_joined blocks') (p.flatMap_right Block.entries)

theorem read_answers_lines :
    (∃ es, Holds "max_retries=3\nmax_retries=4\n" es ∧ Answers es (.error .malformed)) ∧
    read "=" = .error .malformed ∧
    read "server_address=\"h\"\n" = read "z=1\nserver_address=\"h\"\n" ∧
    read "server_address=\"h\"\nz=1\n" = .ok { address := ⟨"h"⟩ } ∧
    read "server_address=\"h\"\nmax_retries=4\n" = .ok { address := ⟨"h"⟩, maxRetries := 4 } := by
  obtain ⟨three, textThree, -⟩ :=
    Toml.exists_block "max_retries=3".toList "max_retries" (by decide +kernel)
  obtain ⟨four, textFour, -⟩ :=
    Toml.exists_block "max_retries=4".toList "max_retries" (by decide +kernel)
  obtain ⟨other, textOther, w, hw⟩ := Toml.exists_block "z=1".toList "z" (by decide +kernel)
  obtain ⟨address, textAddress, v, hv⟩ :=
    Toml.exists_block "server_address=\"h\"".toList "server_address" (by decide +kernel)
  have twice : joined [three, four] = "max_retries=3\nmax_retries=4\n" := by
    rw [Toml.joined_pair, textThree, textFour]
    decide +kernel
  have alone : joined [address] = "server_address=\"h\"\n" := by
    rw [joined, List.flatMap_singleton, textAddress]
    decide +kernel
  have behind : joined [other, address] = "z=1\nserver_address=\"h\"\n" := by
    rw [Toml.joined_pair, textOther, textAddress]
    decide +kernel
  have before : joined [address, other] = "server_address=\"h\"\nz=1\n" := by
    rw [Toml.joined_pair, textOther, textAddress]
    decide +kernel
  have first : joined [four, address] = "max_retries=4\nserver_address=\"h\"\n" := by
    rw [Toml.joined_pair, textFour, textAddress]
    decide +kernel
  have last : joined [address, four] = "server_address=\"h\"\nmax_retries=4\n" := by
    rw [Toml.joined_pair, textFour, textAddress]
    decide +kernel
  obtain ⟨answers, malformed, unchanged, reordered, lines⟩ := read_answers
  have twiceHolds := twice ▸ Toml.holds_joined [three, four]
  have noEnd : Toml.lineEnd? (Toml.skipMark "=".toList) = none := by decide +kernel
  have noEntry : Toml.entryLine? (Toml.skipMark "=".toList) = none := Option.isNone_iff_eq_none.1 (by decide +kernel)
  refine ⟨⟨_, twiceHolds, (answers _ _ twiceHolds _).1 (by decide +kernel)⟩, malformed _ ?_ ?_, ?_, ?_, ?_⟩
  · rintro ⟨es, rest, behind, d, lines, header, -⟩
    cases lines with
    | here =>
      have other : (Toml.skipBlanks (Toml.skipMark "=".toList)).head? ≠ some '[' := by decide +kernel
      exact other (congrArg List.head? header)
    | idle line => cases noEnd.symm.trans line
    | entry line => cases noEntry.symm.trans line
  · intro es holds
    cases holds with
    | idle line => cases noEnd.symm.trans line
    | entry line => cases noEntry.symm.trans line
  · refine unchanged _ _ _ _ (alone ▸ Toml.holds_joined [address])
      (behind ▸ Toml.holds_joined [other, address]) ?_ ?_ ?_
    all_goals
      simp only [List.flatMap_cons, List.flatMap_nil, hw, hv, List.append_nil, List.cons_append, List.nil_append]
    · exact List.pairwise_singleton _ _
    · refine List.pairwise_cons.2 ⟨fun e he => ?_, List.pairwise_singleton _ _⟩
      cases List.mem_singleton.1 he
      exact Toml.not_clash_cons (show "z" ≠ "server_address" by decide) [] []
    · have unknown : Setting.about? ⟨[], "z", w⟩ = none := show Setting.ofWord? "z" = none by decide +kernel
      simp [telling, List.filter_cons, unknown]
  · exact (reordered _ _ _ _ (behind ▸ Toml.holds_joined [other, address])
      (before ▸ Toml.holds_joined [address, other]) ((List.Perm.swap address other []).flatMap_right Block.entries) _).1 (by decide +kernel)
  · have read_first : read (joined [four, address]) = .ok { address := ⟨"h"⟩, maxRetries := 4 } := by
      rw [first]
      decide +kernel
    exact last ▸ (lines _ _ (.swap address four []) _).1 read_first

end Telemetry.Config
