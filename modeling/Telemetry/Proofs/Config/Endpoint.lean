/-
Where the batches of an accepted configuration are posted. White space around an address and slashes at its
end do not matter; what is between them is not looked at, but for a scheme, which is put in front where there
is none. So the place names a host exactly when the address is written as one: a host, or a scheme and a host
(`endpoint_names_host_iff`). An address that is a full one goes its way as it is, with a host or without.
-/
import Telemetry.Config
import Mathlib.Data.List.DropRight
import Mathlib.Data.List.TakeWhile

namespace Telemetry

/-! ## Texts without their ends -/

namespace Text

variable {p : Char → Bool} {cs core front back : List Char}

/-- Nothing but white space. -/
def IsBlanks (cs : List Char) : Prop := ∀ c ∈ cs, isBlank c = true

instance (cs : List Char) : Decidable (IsBlanks cs) := decidable_of_iff (cs.all isBlank = true) List.all_eq_true

/-- Whether a text neither begins nor ends with white space. -/
structure IsTrim (cs : List Char) : Prop where
  begins : ∀ c ∈ cs.head?, isBlank c = false
  ends : ∀ c ∈ cs.getLast?, isBlank c = false

theorem dropEndWhile_append (tail : ∀ c ∈ back, p c = true) (ends : ∀ c ∈ core.getLast?, p c = false) :
    dropEndWhile p (core ++ back) = core := by
  unfold dropEndWhile
  rw [List.reverse_append, List.dropWhile_append_of_pos fun c hc => tail c (List.mem_reverse.1 hc)]
  obtain rfl | ⟨init, last, rfl⟩ := core.eq_nil_or_concat'
  · rfl
  · have hlast : p last = false := ends last (by simp)
    rw [List.reverse_append, List.reverse_singleton, List.singleton_append,
      List.dropWhile_cons_of_neg (by simp [hlast]), List.reverse_cons, List.reverse_reverse]

theorem exists_dropEndWhile (p : Char → Bool) (cs : List Char) :
    ∃ back, cs = dropEndWhile p cs ++ back ∧ (∀ c ∈ back, p c = true) ∧
      ∀ c ∈ (dropEndWhile p cs).getLast?, p c = false := by
  refine ⟨cs.rtakeWhile p, List.rdropWhile_append_rtakeWhile.symm, fun c => List.mem_rtakeWhile_imp, ?_⟩
  intro c hc
  obtain ⟨hne, rfl⟩ := List.mem_getLast?_eq_getLast hc
  exact Bool.eq_false_iff.2 (List.rdropWhile_last_not p cs hne)

theorem mem_head?_append {c : Char} (h : c ∈ core.head?) (back : List Char) : c ∈ (core ++ back).head? := by
  rw [List.head?_append, Option.mem_def.1 h]
  rfl

theorem trim_append (head : IsBlanks front) (tail : IsBlanks back) (inner : IsTrim core) (nonempty : core ≠ []) :
    trim (front ++ core ++ back) = core := by
  obtain ⟨c, rest, rfl⟩ := List.exists_cons_of_ne_nil nonempty
  have hc : isBlank c = false := inner.begins c rfl
  unfold trim
  rw [List.append_assoc, List.dropWhile_append_of_pos head, List.cons_append,
    List.dropWhile_cons_of_neg (by simp [hc]), ← List.cons_append]
  exact dropEndWhile_append tail inner.ends

theorem exists_trim (cs : List Char) :
    ∃ front back, cs = front ++ trim cs ++ back ∧ IsBlanks front ∧ IsBlanks back ∧ IsTrim (trim cs) := by
  obtain ⟨back, split, tail, ends⟩ := exists_dropEndWhile isBlank (cs.dropWhile isBlank)
  refine ⟨cs.takeWhile isBlank, back, ?_, fun c => List.mem_takeWhile_imp, tail, ?_, ends⟩
  · rw [List.append_assoc]
    exact List.takeWhile_append_dropWhile.symm.trans (congrArg _ split)
  · intro c hc
    have first : c ∈ (cs.dropWhile isBlank).head? := split ▸ mem_head?_append hc back
    have stopped := List.head?_dropWhile_not isBlank cs
    rw [Option.mem_def.1 first] at stopped
    exact stopped

end Text

/-! ## Hosts -/

namespace Address

open Text (IsBlanks IsTrim)

variable {a : Address} {scheme name url : List Char} {written : Option (List Char)}

/-- Where batches are posted at a host. -/
def path : List Char := "/updates/".toList

/-- What can be the name of a host and what is behind it: it does not begin with a slash, and there is no white
space around it. -/
structure IsHost (cs : List Char) : Prop extends IsTrim cs where
  nonempty : cs ≠ []
  rootless : ∀ c ∈ cs.head?, c ≠ '/'

/-- Whether a place is one at a host. -/
def NamesHost (url : List Char) : Prop :=
  ∃ scheme host, scheme ≠ [] ∧ IsHost host ∧ url = scheme ++ schemeMark ++ host ++ path

/-- What is written of a scheme in front of a host. -/
def lead : Option (List Char) → List Char
  | none => []
  | some scheme => scheme ++ schemeMark

/-- An address that is written as a host, or as a scheme and a host. Around it may be white space, and slashes
at its end. -/
structure Spells (a : Address) (scheme : Option (List Char)) (host : List Char) : Prop where
  isHost : IsHost host
  ends : ∀ c ∈ host.getLast?, c ≠ '/'
  isScheme : ∀ s ∈ scheme, s ≠ [] ∧ ∀ c ∈ s.head?, Text.isBlank c = false
  plain : scheme = none → ¬ schemeMark <:+: host
  text : ∃ front slashes back, a.text.toList = front ++ (lead scheme ++ host ++ slashes) ++ back ∧
    IsBlanks front ∧ (∀ c ∈ slashes, c = '/') ∧ IsBlanks back

theorem occurs_iff {part cs : List Char} : occurs part cs = true ↔ part <:+: cs := by
  induction cs with
  | nil => simp [occurs]
  | cons c cs ih => rw [occurs, Bool.or_eq_true, ih, List.isPrefixOf_iff_prefix, List.infix_cons_iff]

/-- An address around what is left of it. -/
theorem exists_bare (a : Address) : ∃ front slashes back,
    a.text.toList = front ++ (a.bare ++ slashes) ++ back ∧ IsBlanks front ∧ (∀ c ∈ slashes, c = '/') ∧
      IsBlanks back ∧ (∀ c ∈ a.bare.head?, Text.isBlank c = false) ∧ ∀ c ∈ a.bare.getLast?, c ≠ '/' := by
  obtain ⟨front, back, split, head, tail, inner⟩ := Text.exists_trim a.text.toList
  obtain ⟨slashes, cut, row, ends⟩ := Text.exists_dropEndWhile (· == '/') (Text.trim a.text.toList)
  refine ⟨front, slashes, back, ?_, head, fun c hc => eq_of_beq (row c hc), tail, fun c hc => ?_, fun c hc => ?_⟩
  · exact split.trans (congrArg (front ++ · ++ back) cut)
  · exact inner.begins c (cut ▸ Text.mem_head?_append hc slashes)
  · exact ne_of_beq_false (ends c hc)

/-- What is left of an address is what stands between white space and slashes. -/
theorem bare_eq {front core slashes back : List Char} (text : a.text.toList = front ++ (core ++ slashes) ++ back)
    (head : IsBlanks front) (row : ∀ c ∈ slashes, c = '/') (tail : IsBlanks back) (nonempty : core ≠ [])
    (inner : IsTrim core) (ends : ∀ c ∈ core.getLast?, c ≠ '/') : a.bare = core := by
  have around : IsTrim (core ++ slashes) := by
    refine ⟨fun c hc => inner.begins c ?_, fun c hc => ?_⟩
    · rwa [List.head?_append_of_ne_nil _ nonempty] at hc
    · obtain rfl | hne := slashes.eq_nil_or_concat
      · exact inner.ends c (by simpa using hc)
      · obtain ⟨init, last, rfl⟩ := hne
        obtain rfl : last = c := by simpa using hc
        rw [row last (by simp)]
        decide
  unfold bare
  rw [text, Text.trim_append head tail around (by simp [nonempty])]
  exact Text.dropEndWhile_append (fun c hc => beq_iff_eq.2 (row c hc)) fun c hc => beq_false_of_ne (ends c hc)

/-- A mark between a text without a colon and one without a mark is the only one. -/
theorem eq_of_plain {front core : List Char} (colonless : ':' ∉ front) (plain : ¬ schemeMark <:+: core)
    (h : front ++ schemeMark ++ core = scheme ++ schemeMark ++ name) : name = core := by
  rw [List.append_assoc, List.append_assoc] at h
  obtain ⟨more, -, behind⟩ | ⟨more, before, behind⟩ := List.append_eq_append_iff.1 h
  · match more, behind with
    | [], behind => exact (List.append_cancel_left behind).symm
    | [_], behind => simp [schemeMark] at behind
    | [_, _], behind => simp [schemeMark] at behind
    | _ :: _ :: _ :: more, behind =>
      refine absurd ⟨more, name, ?_⟩ plain
      simp only [schemeMark, String.reduceToList, List.cons_append, List.nil_append, List.cons.injEq] at behind
      simp [schemeMark, behind.2.2.2]
  · match more, before, behind with
    | [], _, behind => exact List.append_cancel_left behind
    | c :: more, before, behind =>
      have hc : c = ':' := (List.cons.inj behind).1.symm
      exact absurd (before ▸ by simp [hc]) colonless

/-- What is written of an address between white space and slashes is what is left of it. -/
theorem Spells.bare_eq (h : a.Spells written name) : a.bare = lead written ++ name := by
  obtain ⟨front, slashes, back, text, head, row, tail⟩ := h.text
  have last : (lead written ++ name).getLast? = name.getLast? := by
    rw [List.getLast?_append, Option.or_of_isSome (by simp [h.isHost.nonempty])]
  refine Address.bare_eq text head row tail (by simp [h.isHost.nonempty]) ⟨?_, ?_⟩ ?_
  · cases written with
    | none => exact h.isHost.begins
    | some scheme =>
      obtain ⟨nonempty, begins⟩ := h.isScheme scheme rfl
      intro c hc
      refine begins c ?_
      rwa [lead, List.append_assoc, List.head?_append_of_ne_nil _ nonempty] at hc
  · rw [last]; exact h.isHost.ends
  · rw [last]; exact h.ends

/-- A host that is written is the one that batches are posted at. -/
theorem Spells.updates_eq (h : a.Spells written name) :
    a.updates = written.getD "http".toList ++ schemeMark ++ name ++ path := by
  unfold updates
  rw [h.bare_eq]
  cases written with
  | none =>
    have plain : ¬ occurs schemeMark (lead none ++ name) = true := fun mark => h.plain rfl (occurs_iff.1 mark)
    rw [if_neg plain]
    rfl
  | some scheme =>
    have mark : occurs schemeMark (lead (some scheme) ++ name) = true := occurs_iff.2 ⟨scheme, name, rfl⟩
    rw [if_pos mark]
    rfl

theorem Spells.namesHost (h : a.Spells written name) : NamesHost a.updates := by
  refine ⟨written.getD "http".toList, name, ?_, h.isHost, h.updates_eq⟩
  cases written with
  | none => decide
  | some scheme => exact (h.isScheme scheme rfl).1

/-- A place at a host comes from an address that is written as one. -/
theorem exists_spells (h : NamesHost a.updates) : ∃ written host, a.Spells written host := by
  obtain ⟨scheme, host, nonempty, isHost, place⟩ := h
  obtain ⟨front, slashes, back, text, head, row, tail, begins, ends⟩ := a.exists_bare
  unfold updates at place
  by_cases mark : occurs schemeMark a.bare = true
  · rw [if_pos mark] at place
    have bare : a.bare = scheme ++ schemeMark ++ host := List.append_cancel_right place
    rw [bare] at text begins ends
    refine ⟨some scheme, host, isHost, ?_, ?_, nofun, front, slashes, back, text, head, row, tail⟩
    · rw [List.getLast?_append, Option.or_of_isSome (by simp [isHost.nonempty])] at ends
      exact ends
    · rintro s ⟨⟩
      rw [List.append_assoc, List.head?_append_of_ne_nil _ nonempty] at begins
      exact ⟨nonempty, begins⟩
  · rw [if_neg mark] at place
    have plain : ¬ schemeMark <:+: a.bare := fun h => mark (occurs_iff.2 h)
    have split : "http".toList ++ schemeMark ++ a.bare = scheme ++ schemeMark ++ host :=
      List.append_cancel_right place
    obtain rfl := eq_of_plain (by decide) plain split
    exact ⟨none, a.bare, isHost, ends, nofun, fun _ => plain, front, slashes, back, text, head, row, tail⟩

/-- Where something is left of an address, its place is a scheme, a mark and something that does not end with
a slash. -/
theorem exists_updates (left : a.bare ≠ []) : ∃ scheme rest,
    a.updates = scheme ++ schemeMark ++ rest ++ path ∧ rest ≠ [] ∧ ∀ c ∈ rest.getLast?, c ≠ '/' := by
  obtain ⟨-, -, -, -, -, -, -, -, ends⟩ := a.exists_bare
  unfold updates
  by_cases mark : occurs schemeMark a.bare = true
  · obtain ⟨scheme, rest, bare⟩ := occurs_iff.1 mark
    rw [← bare] at ends
    -- The mark ends with a slash, so it is not at the end.
    have nonempty : rest ≠ [] := by
      rintro rfl
      exact ends '/' (by simp [schemeMark]) rfl
    rw [List.getLast?_append, Option.or_of_isSome (by simp [nonempty])] at ends
    rw [if_pos mark, ← bare]
    exact ⟨scheme, rest, rfl, nonempty, ends⟩
  · rw [if_neg mark]
    exact ⟨"http".toList, a.bare, rfl, left, ends⟩

/-- Slashes and nothing else, but for white space around them. -/
def IsSlashes (a : Address) : Prop := ∃ front slashes back, a.text.toList = front ++ slashes ++ back ∧
  IsBlanks front ∧ slashes ≠ [] ∧ (∀ c ∈ slashes, c = '/') ∧ IsBlanks back

theorem bare_ne_nil (written : ¬ IsBlanks a.text.toList) (beyond : ¬ a.IsSlashes) : a.bare ≠ [] := by
  intro bare
  obtain ⟨front, slashes, back, text, head, row, tail, -, -⟩ := a.exists_bare
  rw [bare, List.nil_append] at text
  by_cases none : slashes = []
  · refine written ?_
    rw [text, none, List.append_nil]
    exact List.forall_mem_append.2 ⟨head, tail⟩
  · exact beyond ⟨front, slashes, back, text, head, none, row, tail⟩

end Address

/-! ## Accepted configurations -/

namespace Config

open Address (NamesHost schemeMark path)

variable {c : Config} {text : String}

theorem check_of_read (accepted : read text = .ok c) : c.check = .ok () := by
  unfold read at accepted
  split at accepted
  · cases accepted
  · split at accepted
    · cases accepted
    · split at accepted
      · cases accepted
      · cases accepted
        assumption

theorem address_not_blank (accepted : read text = .ok c) : ¬ Text.IsBlanks c.address.text.toList := by
  have checked := check_of_read accepted
  unfold check at checked
  split at checked
  · cases checked
  · rename_i written
    exact fun blanks => written (List.all_eq_true.2 blanks)

/-- Batches of an accepted configuration are posted at a place with a scheme and something behind it, unless
its address is a row of slashes. The place names a host exactly when the address is written as a host, or as a
scheme and a host; it then is that host, and that scheme or plain transfer. -/
theorem endpoint_names_host_iff (accepted : read text = .ok c) (beyond : ¬ c.address.IsSlashes) :
    (∃ scheme rest, c.address.updates = scheme ++ schemeMark ++ rest ++ path ∧ rest ≠ [] ∧
      ∀ ch ∈ rest.getLast?, ch ≠ '/') ∧
    (∀ written host, c.address.Spells written host →
      c.address.updates = written.getD "http".toList ++ schemeMark ++ host ++ path) ∧
    (NamesHost c.address.updates ↔ ∃ written host, c.address.Spells written host) := by
  refine ⟨Address.exists_updates (Address.bare_ne_nil (address_not_blank accepted) beyond),
    fun _ _ spells => spells.updates_eq, Address.exists_spells, ?_⟩
  rintro ⟨written, host, spells⟩
  exact spells.namesHost

theorem endpoint_names_host_iff_spaced :
    read "server_address = \" https://h:1//\\t\"" = .ok { address := ⟨" https://h:1//\t"⟩ } ∧
      NamesHost (Address.mk " https://h:1//\t").updates := by
  have accepted : read "server_address = \" https://h:1//\\t\"" = .ok { address := ⟨" https://h:1//\t"⟩ } := by
    decide +kernel
  have beyond : ¬ (Address.mk " https://h:1//\t").IsSlashes := by
    rintro ⟨front, slashes, back, text, head, -, row, tail⟩
    have inside : 'h' ∈ front ++ slashes ++ back := by
      rw [← text]
      decide +kernel
    rw [List.mem_append, List.mem_append] at inside
    obtain (h | h) | h := inside
    · exact absurd (head 'h' h) (by decide)
    · exact absurd (row 'h' h) (by decide)
    · exact absurd (tail 'h' h) (by decide)
  have spells : (Address.mk " https://h:1//\t").Spells (some ['h', 't', 't', 'p', 's']) ['h', ':', '1'] := by
    refine ⟨⟨⟨?_, ?_⟩, nofun, ?_⟩, ?_, ?_, nofun, [' '], ['/', '/'], ['\t'], ?_, ?_, ?_, ?_⟩
    · rintro c ⟨⟩; decide
    · rintro c ⟨⟩; decide
    · rintro c ⟨⟩; decide
    · rintro c ⟨⟩; decide
    · rintro s ⟨⟩
      refine ⟨nofun, ?_⟩
      rintro c ⟨⟩; decide
    · decide +kernel
    · decide +kernel
    · simp
    · decide +kernel
  exact ⟨accepted, (endpoint_names_host_iff accepted beyond).2.2.2 ⟨_, _, spells⟩⟩

/-- A full address is taken as it is, also when it names a file and no host. -/
theorem endpoint_without_host :
    read "server_address = \"file:///var/spool\"" = .ok { address := ⟨"file:///var/spool"⟩ } ∧
      ¬ NamesHost (Address.mk "file:///var/spool").updates := by
  refine ⟨by decide +kernel, ?_⟩
  have taken : (Address.mk "file:///var/spool").updates =
      "file".toList ++ schemeMark ++ "/var/spool".toList ++ path := by decide +kernel
  rintro ⟨scheme, host, -, isHost, place⟩
  have split : "file".toList ++ schemeMark ++ "/var/spool".toList = scheme ++ schemeMark ++ host :=
    List.append_cancel_right (taken.symm.trans place)
  obtain rfl := Address.eq_of_plain (by decide +kernel) (by decide +kernel) split
  exact isHost.rootless '/' (by decide +kernel) rfl

end Config

end Telemetry
