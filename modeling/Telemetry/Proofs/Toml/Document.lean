/-
Documents without headers: lines with an entry or with nothing. Such a document is read entry by entry, and one
that is no row of such lines is not read at all (`read?_of_lists`, `read?_eq_none`). Lines that are documents
by themselves are one together, with the entries of all of them in their order (`holds_joined`).
-/
import Telemetry.Toml.Document
import Telemetry.Proofs.Toml.Entry

namespace Telemetry.Toml

variable {cs rest behind more : List Char}

/-! ## Lines -/

/-- An entry as it is written: the path to its table, its last part and its value. -/
structure Entry where
  path : List String
  key : String
  value : Value

/-- An entry up to the end of its line. -/
def entryLine? : Reader Entry := fun cs => do
  let (((path, key), value), rest) ← readEntry (readValue (depthLimit - 1)) cs
  some (⟨path, key, value⟩, ← lineEnd? rest)

variable {e : Entry} {es es' : List Entry}

/-- What is read line by line: the entries of some lines, and the text behind these. -/
inductive Leads : List Char → List Entry → List Char → Prop where
  | here (cs : List Char) : Leads cs [] cs
  | idle {cs rest behind : List Char} {es : List Entry} (line : lineEnd? cs = some rest)
      (lines : Leads rest es behind) : Leads cs es behind
  | entry {cs rest behind : List Char} {e : Entry} {es : List Entry} (line : entryLine? cs = some (e, rest))
      (lines : Leads rest es behind) : Leads cs (e :: es) behind

/-- A document that is nothing but lines with these entries. -/
def Lists (cs : List Char) (es : List Entry) : Prop := Leads cs es []

/-- A document in which a line that can be read as a header comes behind lines without one. -/
def HasHeader (cs : List Char) : Prop :=
  ∃ es rest behind d, Leads cs es rest ∧ skipBlanks rest = '[' :: behind ∧ (readHeader d behind).isSome

theorem lineEnd?_of_nil (h : skipBlanks cs = []) : lineEnd? cs = some [] := by
  unfold lineEnd?
  rw [h]
  rfl

theorem lineEnd?_eq (cs : List Char) : lineEnd? cs =
    if skipComment (skipBlanks cs) = [] then some [] else break? (skipComment (skipBlanks cs)) := by
  unfold lineEnd?
  split
  · rename_i h
    rw [if_pos h]
  · rename_i h
    rw [if_neg h]

theorem length_lineEnd? (h : lineEnd? cs = some rest) :
    rest.length ≤ cs.length ∧ (cs ≠ [] → rest.length < cs.length) := by
  have blanks := length_skipBlanks cs
  have comment := length_skipComment (skipBlanks cs)
  rw [lineEnd?_eq] at h
  split at h
  · cases h
    exact ⟨Nat.zero_le _, List.length_pos_iff.2⟩
  · have := length_of_break? h
    exact ⟨by omega, fun _ => by omega⟩

theorem entryLine?_eq_some : entryLine? cs = some (e, rest) ↔ ∃ behind,
    readEntry (readValue (depthLimit - 1)) cs = some (((e.path, e.key), e.value), behind) ∧
      lineEnd? behind = some rest := by
  constructor
  · intro h
    obtain ⟨⟨⟨⟨path, key⟩, v⟩, behind⟩, hentry, h⟩ := Option.bind_eq_some_iff.1 h
    obtain ⟨rest', hend, h⟩ := Option.bind_eq_some_iff.1 h
    cases h
    exact ⟨behind, hentry, hend⟩
  · rintro ⟨behind, hentry, hend⟩
    exact Option.bind_eq_some_iff.2 ⟨_, hentry, Option.bind_eq_some_iff.2 ⟨rest, hend, rfl⟩⟩

/-- Where an entry is not a line by itself, its line does not end behind it. -/
theorem lineEnd?_of_readEntry {x : (List String × String) × Value} (h : entryLine? cs = none)
    (hentry : readEntry (readValue (depthLimit - 1)) cs = some (x, behind)) : lineEnd? behind = none := by
  cases hend : lineEnd? behind with
  | none => rfl
  | some rest =>
    have found : entryLine? cs = some (⟨x.1.1, x.1.2, x.2⟩, rest) := entryLine?_eq_some.2 ⟨behind, hentry, hend⟩
    cases h.symm.trans found

theorem length_entryLine? (h : entryLine? cs = some (e, rest)) : rest.length < cs.length := by
  obtain ⟨behind, hentry, hend⟩ := entryLine?_eq_some.1 h
  have := readEntry_shorter (readValue_item _).toIsLinewise hentry
  have := (length_lineEnd? hend).1
  omega

/-- An entry begins with a quote or a character of a bare key. -/
theorem entryLine?_head (h : entryLine? cs = some (e, rest)) :
    ∃ c behind, skipBlanks cs = c :: behind ∧ (c = '"' ∨ c = '\x27' ∨ isBareKey c) := by
  obtain ⟨behind, hentry, -⟩ := entryLine?_eq_some.1 h
  obtain ⟨x, hkey, -⟩ := Option.bind_eq_some_iff.1 hentry
  obtain ⟨y, hparts, -⟩ := Option.bind_eq_some_iff.1 hkey
  obtain ⟨z, hpart, -⟩ := Option.bind_eq_some_iff.1 hparts
  match hcs : skipBlanks cs with
  | [] =>
    rw [hcs] at hpart
    cases hpart
  | c :: behind =>
    refine ⟨c, behind, rfl, ?_⟩
    by_cases double : c = '"'
    · exact .inl double
    by_cases single : c = '\x27'
    · exact .inr (.inl single)
    rw [hcs, readKeyPart_cons double single] at hpart
    obtain ⟨word, -⟩ := Option.ite_none_left_eq_some.1 hpart
    by_cases bare : isBareKey c
    · exact .inr (.inr bare)
    · exact absurd (by rw [List.takeWhile_cons, if_neg bare]; rfl) word

/-! ## A line is of one kind -/

theorem lineEnd?_of_entry (h : entryLine? cs = some (e, rest)) : lineEnd? cs = none := by
  obtain ⟨c, behind, hcs, hc⟩ := entryLine?_head h
  have other : c ≠ '#' ∧ c ≠ '\n' ∧ c ≠ '\r' := by
    refine ⟨?_, ?_, ?_⟩ <;> rintro rfl <;> exact absurd hc (by decide)
  rw [lineEnd?_eq, hcs, skipComment_cons_of_ne other.1, if_neg (by simp)]
  exact break?_cons_of_ne other.2.1 other.2.2 _

theorem head?_of_lineEnd (h : lineEnd? cs = some rest) : (skipBlanks cs).head? ≠ some '[' := by
  intro header
  obtain ⟨behind, hcs⟩ := List.head?_eq_some_iff.1 header
  rw [lineEnd?_eq, hcs, skipComment_cons_of_ne (by decide), if_neg (by simp),
    break?_cons_of_ne (by decide) (by decide)] at h
  cases h

/-- A document is nothing, or a line in front of a document. -/
@[elab_as_elim]
theorem Lists.induction {motive : (cs : List Char) → (es : List Entry) → Lists cs es → Prop}
    (nil : motive [] [] (.here []))
    (idle : ∀ {cs rest es} (line : lineEnd? cs = some rest) (lines : Lists rest es), motive rest es lines →
      motive cs es (.idle line lines))
    (entry : ∀ {cs rest e es} (line : entryLine? cs = some (e, rest)) (lines : Lists rest es),
      motive rest es lines → motive cs (e :: es) (.entry line lines))
    {cs : List Char} {es : List Entry} (h : Lists cs es) : motive cs es h := by
  have lists {cs behind : List Char} {es : List Entry} (h : Leads cs es behind) (done : behind = []) :
      motive cs es (show Leads cs es [] from done ▸ h) := by
    induction h with
    | here =>
      subst done
      exact nil
    | idle line lines ih =>
      subst done
      exact idle line lines (ih rfl)
    | entry line lines ih =>
      subst done
      exact entry line lines (ih rfl)
  exact lists h rfl

theorem Lists.of_nil (h : Lists [] es) : es = [] := by
  generalize hcs : ([] : List Char) = cs at h
  induction h using Lists.induction with
  | nil => rfl
  | idle line _ ih =>
    subst hcs
    cases line
    exact ih rfl
  | entry line =>
    subst hcs
    exact absurd (length_entryLine? line) (Nat.not_lt_zero _)

/-! ## A document line by line -/

theorem skipBlanks_skipBlanks (cs : List Char) : skipBlanks (skipBlanks cs) = skipBlanks cs := by
  induction cs with
  | nil => rfl
  | cons c cs ih =>
    unfold skipBlanks at ih ⊢
    rw [List.dropWhile_cons]
    split
    · exact ih
    · rename_i h
      rw [List.dropWhile_cons, if_neg h]

theorem readEntry_skipBlanks (value : Reader Value) (cs : List Char) :
    readEntry value (skipBlanks cs) = readEntry value cs := by
  have hkey : readKey (skipBlanks cs) = readKey cs := by
    unfold readKey
    simp only [show depthLimit - 1 = 78 + 1 from rfl, readKeyParts_succ, skipBlanks_skipBlanks]
  unfold readEntry
  rw [hkey]

section

variable {d : Draft} {fuel : Nat}

theorem readDocument_of_entry (h : entryLine? cs = some (e, rest)) : readDocument (fuel + 1) d cs =
    (d.addEntry e.path e.key e.value).bind fun d => readDocument fuel d rest := by
  obtain ⟨c, behind, hcs, hc⟩ := entryLine?_head h
  have other : c ≠ '#' ∧ c ≠ '[' ∧ c ≠ '\n' ∧ c ≠ '\r' := by
    refine ⟨?_, ?_, ?_, ?_⟩ <;> rintro rfl <;> exact absurd hc (by decide)
  obtain ⟨behind', hentry, hend⟩ := entryLine?_eq_some.1 h
  rw [← readEntry_skipBlanks, hcs] at hentry
  rw [readDocument, hcs]
  split
  · cases ‹_ :: _ = []›
  · exact absurd (List.cons.inj ‹_›).1 other.1
  · exact absurd (List.cons.inj ‹_›).1 other.2.1
  · rw [break?_cons_of_ne other.2.2.1 other.2.2.2, hentry]
    simp only [Option.bind_eq_bind, Option.bind_some, hend]

theorem readDocument_of_none (h : entryLine? cs = none) (plain : (skipBlanks cs).head? ≠ some '[') :
    readDocument (fuel + 1) d cs =
      if skipBlanks cs = [] then d.finish else (lineEnd? cs).bind (readDocument fuel d) := by
  have hend : lineEnd? (skipBlanks cs) = lineEnd? cs := by
    unfold lineEnd?
    rw [skipBlanks_skipBlanks]
  rw [readDocument]
  split
  · rename_i blank
    rw [if_pos blank]
  · rename_i comment
    rw [← comment, hend, if_neg (by simp [comment])]
  · rename_i header
    exact absurd (by rw [header]; rfl) plain
  · rename_i nonblank comment header
    have noComment : skipComment (skipBlanks cs) = skipBlanks cs := by
      match hcs : skipBlanks cs with
      | [] => rfl
      | c :: behind => exact skipComment_cons_of_ne (fun hc => comment behind (by rw [hcs, hc])) behind
    rw [if_neg nonblank, lineEnd?_eq, noComment, if_neg nonblank]
    cases hbreak : break? (skipBlanks cs) with
    | some rest => rfl
    | none =>
      cases hentry : readEntry (readValue (depthLimit - 1)) (skipBlanks cs) with
      | none => rfl
      | some x =>
        -- The entry is added before its line is found not to end, which does not help it.
        obtain ⟨⟨⟨path, key⟩, v⟩, behind⟩ := x
        rw [readEntry_skipBlanks] at hentry
        simp only [Option.bind_eq_bind, Option.bind_some, lineEnd?_of_readEntry h hentry, Option.bind_none]
        cases d.addEntry path key v <;> rfl

theorem readDocument_of_bracket (h : skipBlanks cs = '[' :: behind) : readDocument (fuel + 1) d cs =
    (readHeader d behind).bind fun (d, rest) => readDocument fuel d rest := by
  rw [readDocument]
  split
  · cases h.symm.trans ‹_›
  · cases h.symm.trans ‹_›
  · rename_i h'
    cases h.symm.trans h'
    rfl
  · rename_i header
    exact absurd h (header behind)

/-- A document that is nothing but lines is read entry by entry. -/
theorem readDocument_of_lists (h : Lists cs es) (long : cs.length < fuel) :
    readDocument fuel d cs =
      (es.foldlM (fun (d : Draft) e => d.addEntry e.path e.key e.value) d).bind Draft.finish := by
  induction h using Lists.induction generalizing fuel d with
  | nil =>
    obtain ⟨fuel, rfl⟩ : ∃ n, fuel = n + 1 := ⟨fuel - 1, by omega⟩
    rfl
  | @idle cs rest es line lines ih =>
    obtain ⟨fuel, rfl⟩ : ∃ n, fuel = n + 1 := ⟨fuel - 1, by omega⟩
    have noEntry : entryLine? cs = none := by
      cases hentry : entryLine? cs with
      | none => rfl
      | some x => cases line.symm.trans (lineEnd?_of_entry hentry)
    rw [readDocument_of_none noEntry (head?_of_lineEnd line)]
    split
    · rename_i blank
      cases line.symm.trans (lineEnd?_of_nil blank)
      rw [lines.of_nil]
      rfl
    · rename_i nonblank
      have := (length_lineEnd? line).2 (by rintro rfl; exact nonblank rfl)
      rw [line, Option.bind_some]
      exact ih (by omega)
  | @entry cs rest e es line lines ih =>
    obtain ⟨fuel, rfl⟩ : ∃ n, fuel = n + 1 := ⟨fuel - 1, by omega⟩
    have := length_entryLine? line
    rw [readDocument_of_entry line, List.foldlM_cons]
    cases d.addEntry e.path e.key e.value with
    | none => rfl
    | some d => exact ih (by omega)

/-- What is neither lines nor lines with a header behind them is not read. -/
theorem readDocument_eq_none (noHeader : ¬ HasHeader cs) (broken : ∀ es, ¬ Lists cs es) :
    readDocument fuel d cs = none := by
  induction fuel generalizing d cs with
  | zero => rfl
  | succ fuel ih =>
    -- What is behind a line has no header either, and is no row of lines either.
    have later {rest : List Char} (next : ∀ {es behind}, Leads rest es behind → ∃ es', Leads cs es' behind)
        (d : Draft) : readDocument fuel d rest = none := by
      refine ih (fun ⟨es, rest', behind, d, lines, header⟩ => ?_) fun es lines => ?_
      · obtain ⟨es', lines⟩ := next lines
        exact noHeader ⟨es', rest', behind, d, lines, header⟩
      · obtain ⟨es', lines⟩ := next lines
        exact broken es' lines
    cases hentry : entryLine? cs with
    | some x =>
      obtain ⟨e, rest⟩ := x
      rw [readDocument_of_entry hentry, Option.bind_eq_none_iff]
      exact fun d _ => later (fun lines => ⟨_, .entry hentry lines⟩) d
    | none =>
      by_cases bracket : (skipBlanks cs).head? = some '['
      · obtain ⟨behind, hcs⟩ := List.head?_eq_some_iff.1 bracket
        rw [readDocument_of_bracket hcs]
        cases header : readHeader d behind with
        | none => rfl
        | some x => exact absurd ⟨[], cs, behind, d, .here cs, hcs, by rw [header]; rfl⟩ noHeader
      · have nonblank : skipBlanks cs ≠ [] := fun blank => broken [] (.idle (lineEnd?_of_nil blank) (.here _))
        rw [readDocument_of_none hentry bracket, if_neg nonblank, Option.bind_eq_none_iff]
        exact fun rest line => later (fun lines => ⟨_, .idle line lines⟩) d

end

theorem length_skipMark (cs : List Char) : (skipMark cs).length ≤ cs.length := by
  unfold skipMark
  split
  · exact Nat.le_succ _
  · exact Nat.le_refl _

/-- Makes entries one after another in a table. -/
def Entries.insertAll (root : Entries) (es : List Entry) : Option Entries :=
  es.foldlM (fun root e => Entries.insert e.path e.key e.value root) root

theorem foldlM_addEntry (es : List Entry) (d : Draft) :
    es.foldlM (fun (d : Draft) e => d.addEntry e.path e.key e.value) d =
      (d.current.insertAll es).map ({ d with current := · }) := by
  induction es generalizing d with
  | nil => rfl
  | cons e es ih =>
    unfold Entries.insertAll at ih ⊢
    rw [List.foldlM_cons, List.foldlM_cons]
    unfold Draft.addEntry at ih ⊢
    cases d.current.insert e.path e.key e.value with
    | none => rfl
    | some root => exact ih { d with current := root }

theorem read?_of_lists {text : List Char} (h : Lists (skipMark text) es) : read? text = Entries.insertAll [] es := by
  have := length_skipMark text
  unfold read?
  rw [readDocument_of_lists h (by omega), foldlM_addEntry]
  cases Entries.insertAll [] es <;> rfl

theorem read?_eq_none {text : List Char} (noHeader : ¬ HasHeader (skipMark text))
    (broken : ∀ es, ¬ Lists (skipMark text) es) : read? text = none :=
  readDocument_eq_none noHeader broken

/-! ## Lines behind lines -/

theorem lineEnd?_followed (h : lineEnd? cs = some rest) (more : List Char) :
    lineEnd? (cs ++ '\n' :: more) = some (rest ++ '\n' :: more) ∨
      rest = [] ∧ lineEnd? (cs ++ '\n' :: more) = some more := by
  rw [lineEnd?_eq] at h ⊢
  rw [skipBlanks_followed, skipComment_followed, if_neg (by simp)]
  split at h
  · rename_i done
    cases h
    rw [done]
    exact .inr ⟨rfl, rfl⟩
  · exact .inl (break?_followed h more)

theorem entryLine?_followed (h : entryLine? cs = some (e, rest)) (more : List Char) :
    entryLine? (cs ++ '\n' :: more) = some (e, rest ++ '\n' :: more) ∨
      rest = [] ∧ entryLine? (cs ++ '\n' :: more) = some (e, more) := by
  obtain ⟨behind, hentry, hend⟩ := entryLine?_eq_some.1 h
  have hentry := (readEntry_linewise (readValue_item _).toIsLinewise).followed hentry more
  simp only [entryLine?_eq_some]
  obtain hend | ⟨done, hend⟩ := lineEnd?_followed hend more
  · exact .inl ⟨_, hentry, hend⟩
  · exact .inr ⟨done, _, hentry, hend⟩

/-- A document behind a document has the entries of both. -/
theorem Lists.append {l m : List Char} (h : Lists l es) (h' : Lists m es') : Lists (l ++ '\n' :: m) (es ++ es') := by
  -- The line break between the two is either kept for the end of the first, or it is what ends its last line.
  induction h using Lists.induction with
  | nil => exact .idle rfl h'
  | idle line lines ih =>
    obtain line | ⟨rfl, last⟩ := lineEnd?_followed line m
    · exact .idle line ih
    · rw [lines.of_nil]
      exact .idle last h'
  | entry line lines ih =>
    obtain line | ⟨rfl, last⟩ := entryLine?_followed line m
    · exact .entry line ih
    · rw [lines.of_nil]
      exact .entry last h'

/-- A document of lines begins without a mark. -/
theorem Lists.skipMark_eq (h : Lists cs es) : skipMark cs = cs := by
  unfold skipMark
  split
  · rename_i rest
    cases h with
    | idle line => cases line
    | entry line =>
      obtain ⟨c, behind, hcs, hc⟩ := entryLine?_head line
      cases hcs
      exact absurd hc (by decide)
  · rfl

/-- A text that is nothing but lines with these entries, behind a mark or none. -/
def Holds (text : String) (es : List Entry) : Prop := Lists (skipMark text.toList) es

/-- Lines that are a document by themselves, with its entries. -/
structure Block where
  text : List Char
  entries : List Entry
  lists : Lists text entries

/-- A text of blocks, one below the other. -/
def joined (blocks : List Block) : String := String.ofList (blocks.flatMap (·.text ++ ['\n']))

/-- Blocks one below the other hold the entries of all of them in their order. -/
theorem holds_joined (blocks : List Block) : Holds (joined blocks) (blocks.flatMap Block.entries) := by
  have lists : Lists (blocks.flatMap (·.text ++ ['\n'])) (blocks.flatMap Block.entries) := by
    induction blocks with
    | nil => exact .here []
    | cons b blocks ih =>
      rw [List.flatMap_cons, List.flatMap_cons, List.append_assoc]
      exact b.lists.append ih
  unfold Holds joined
  rwa [String.toList_ofList, lists.skipMark_eq]

theorem joined_pair (b b' : Block) : joined [b, b'] = String.ofList (b.text ++ '\n' :: (b'.text ++ ['\n'])) := by
  simp [joined]

/-- A line with one entry. -/
theorem exists_block (line : List Char) (key : String)
    (h : (entryLine? line).map (fun x => (x.1.path, x.1.key, x.2)) = some ([], key, [])) :
    ∃ b : Block, b.text = line ∧ ∃ v, b.entries = [⟨[], key, v⟩] := by
  obtain ⟨⟨⟨path, key', v⟩, rest⟩, hentry, he⟩ := Option.map_eq_some_iff.1 h
  cases he
  exact ⟨⟨line, _, .entry hentry (.here [])⟩, rfl, v, rfl⟩

/-- Nothing is added to the values of entries by keys with dots. -/
theorem Leads.isClosed (h : Leads cs es behind) (he : e ∈ es) : e.value.IsClosed := by
  induction h with
  | here => cases he
  | idle _ _ ih => exact ih he
  | entry line _ ih =>
    obtain rfl | he := List.mem_cons.1 he
    · obtain ⟨behind', hentry, -⟩ := entryLine?_eq_some.1 line
      obtain ⟨⟨key', behind''⟩, -, h⟩ := Option.bind_eq_some_iff.1 hentry
      simp only at h
      split at h
      · obtain ⟨⟨w, rest''⟩, hw, h⟩ := Option.bind_eq_some_iff.1 h
        cases h
        exact readValue_isClosed hw
      · cases h
    · exact ih he

end Telemetry.Toml
