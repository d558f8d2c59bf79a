/-
Keys, values and entries are linewise. A list may go over several lines, but it has to come to its closing
bracket; so an entry that is complete on the last line of a text is the same entry when other lines follow.
-/
import Telemetry.Toml.Reader
import Telemetry.Proofs.Toml.Scalar

namespace Telemetry.Toml

variable {cs rest more : List Char}

theorem head?_followed {c : Char} (h : c ≠ '\n') (cs more : List Char) :
    (cs ++ '\n' :: more).head? = some c ↔ cs.head? = some c := by
  cases cs with
  | nil => simp [h.symm]
  | cons => rfl

/-! ## Keys -/

/-- Blanks in front of what a reader reads. -/
theorem IsLinewise.behindBlanks {α : Type} {f : Reader α} (hf : IsLinewise f) :
    IsLinewise fun cs => f (skipBlanks cs) where
  shorter {cs rest v} h := Nat.le_trans (hf.shorter h) (length_skipBlanks cs)
  followed {cs rest v} h more := by
    rw [skipBlanks_followed]
    exact hf.followed h more

theorem readKeyPart_cons {c : Char} (double : c ≠ '"') (single : c ≠ '\x27') (cs : List Char) :
    readKeyPart (c :: cs) =
      if ((c :: cs).takeWhile isBareKey).isEmpty then none
      else some (String.ofList ((c :: cs).takeWhile isBareKey),
        (c :: cs).drop ((c :: cs).takeWhile isBareKey).length) := by
  unfold readKeyPart
  split
  · exact absurd (List.cons.inj ‹_›).1 double
  · exact absurd (List.cons.inj ‹_›).1 single
  · rfl

theorem readKeyPart_linewise : IsLinewise readKeyPart where
  shorter {cs rest v} h := by
    unfold readKeyPart at h
    split at h
    · exact Nat.le_succ_of_le ((readLine_linewise _ _).shorter h)
    · exact Nat.le_succ_of_le ((readLine_linewise _ _).shorter h)
    · simp only at h
      split at h
      · cases h
      · cases h
        exact (List.drop_sublist _ _).length_le
  followed {cs rest v} h more := by
    match cs with
    | [] => cases h
    | c :: cs =>
      by_cases double : c = '"'
      · subst double
        exact (readLine_linewise _ _).followed h more
      · by_cases single : c = '\x27'
        · subst single
          exact (readLine_linewise _ _).followed h more
        · rw [readKeyPart_cons double single] at h
          rw [List.cons_append, readKeyPart_cons double single, ← List.cons_append,
            takeWhile_followed (by decide)]
          split at h
          · cases h
          · rename_i word
            cases h
            rw [if_neg word, List.drop_append_of_le_length (List.takeWhile_sublist _).length_le]

/-- What is behind a part of a key: a point and another part, or something else. -/
def readMoreParts (next : List String → Reader (List String)) (acc : List String) : Reader (List String) := fun cs =>
  match skipBlanks cs with
  | '.' :: rest => next acc rest
  | rest => some (acc.reverse, rest)

theorem readKeyParts_succ (fuel : Nat) (acc : List String) : readKeyParts (fuel + 1) acc = fun cs =>
    (readKeyPart (skipBlanks cs)).bind fun x => readMoreParts (readKeyParts fuel) (x.1 :: acc) x.2 := rfl

theorem readMoreParts_of_point {next : List String → Reader (List String)} {acc : List String}
    (h : skipBlanks cs = '.' :: rest) : readMoreParts next acc cs = next acc rest := by
  unfold readMoreParts
  rw [h]
  rfl

theorem readMoreParts_of_ne {next : List String → Reader (List String)} {acc : List String}
    (h : (skipBlanks cs).head? ≠ some '.') : readMoreParts next acc cs = some (acc.reverse, skipBlanks cs) := by
  unfold readMoreParts
  split
  · rename_i h'
    exact absurd (by rw [h']; rfl) h
  · rfl

theorem readMoreParts_linewise {next : List String → Reader (List String)} {acc : List String}
    (hnext : IsLinewise (next acc)) : IsLinewise (readMoreParts next acc) where
  shorter {cs rest v} h := by
    have blanks := length_skipBlanks cs
    unfold readMoreParts at h
    split at h
    · rename_i point
      have behind := hnext.shorter h
      rw [point, List.length_cons] at blanks
      omega
    · cases h
      exact blanks
  followed {cs rest v} h more := by
    by_cases point : (skipBlanks cs).head? = some '.'
    · obtain ⟨behind, hbehind⟩ := List.head?_eq_some_iff.1 point
      rw [readMoreParts_of_point hbehind] at h
      rw [readMoreParts_of_point (by rw [skipBlanks_followed, hbehind]; rfl)]
      exact hnext.followed h more
    · rw [readMoreParts_of_ne point] at h
      cases h
      have point' : (skipBlanks (cs ++ '\n' :: more)).head? ≠ some '.' := by
        rwa [skipBlanks_followed, ne_eq, head?_followed (by decide)]
      rw [readMoreParts_of_ne point', skipBlanks_followed]

theorem readKeyParts_linewise (fuel : Nat) (acc : List String) : IsLinewise (readKeyParts fuel acc) := by
  induction fuel generalizing acc with
  | zero => exact ⟨nofun, nofun⟩
  | succ fuel ih =>
    rw [readKeyParts_succ]
    exact readKeyPart_linewise.behindBlanks.bind fun part => readMoreParts_linewise (ih (part :: acc))

theorem readKey_linewise : IsLinewise readKey :=
  (readKeyParts_linewise _ _).weigh (·.getLast?) fun parts last => (parts.dropLast, last)

/-! ## Entries -/

/-- An entry takes the sign of equality at least. -/
theorem readEntry_shorter {value : Reader Value} {e : (List String × String) × Value} (hvalue : IsLinewise value)
    (h : readEntry value cs = some (e, rest)) : rest.length < cs.length := by
  obtain ⟨⟨key, behind⟩, hkey, h⟩ := Option.bind_eq_some_iff.1 h
  have hkey := readKey_linewise.shorter hkey
  simp only at h
  split at h
  · obtain ⟨⟨v, behind'⟩, hv, h⟩ := Option.bind_eq_some_iff.1 h
    have hv := hvalue.behindBlanks.shorter hv
    cases h
    exact Nat.lt_of_le_of_lt hv hkey
  · cases h

theorem readEntry_linewise {value : Reader Value} (hvalue : IsLinewise value) : IsLinewise (readEntry value) where
  shorter h := Nat.le_of_lt (readEntry_shorter hvalue h)
  followed h more := by
    obtain ⟨⟨key, behind⟩, hkey, h⟩ := Option.bind_eq_some_iff.1 h
    have hkey := readKey_linewise.followed hkey more
    simp only at h
    split at h
    · obtain ⟨⟨v, behind'⟩, hv, h⟩ := Option.bind_eq_some_iff.1 h
      cases h
      exact Option.bind_eq_some_iff.2 ⟨_, hkey, Option.bind_eq_some_iff.2
        ⟨_, hvalue.behindBlanks.followed hv more, rfl⟩⟩
    · cases h

/-! ## Lists -/

theorem skipLines_succ (fuel : Nat) (cs : List Char) : skipLines (fuel + 1) cs =
    if (skipBlanks cs).head? = some '#' then (break? (skipComment (skipBlanks cs))).bind (skipLines fuel)
    else match break? (skipBlanks cs) with
      | some rest => skipLines fuel rest
      | none => some (skipBlanks cs) := by
  rw [skipLines]
  split
  · rename_i h
    rw [if_pos (by rw [h]; rfl), h]
  · rename_i h
    have noComment : (skipBlanks cs).head? ≠ some '#' := by
      intro h'
      obtain ⟨behind, hbehind⟩ := List.head?_eq_some_iff.1 h'
      exact h behind hbehind
    exact (if_neg noComment).symm

theorem length_skipLines {fuel : Nat} (h : skipLines fuel cs = some rest) : rest.length ≤ cs.length := by
  induction fuel generalizing cs with
  | zero => cases h; exact Nat.le_refl _
  | succ fuel ih =>
    have blanks := length_skipBlanks cs
    rw [skipLines_succ] at h
    split at h
    · obtain ⟨behind, hbreak, h⟩ := Option.bind_eq_some_iff.1 h
      have := ih h
      have := length_of_break? hbreak
      have := length_skipComment (skipBlanks cs)
      omega
    · split at h
      · rename_i behind hbreak
        have := ih h
        have := length_of_break? hbreak
        omega
      · cases h
        exact blanks

theorem skipLines_followed {fuel fuel' : Nat} (long : cs.length ≤ fuel) (long' : (cs ++ '\n' :: more).length ≤ fuel')
    (h : skipLines fuel cs = some rest) (tight : ¬ IsLoose rest) :
    skipLines fuel' (cs ++ '\n' :: more) = some (rest ++ '\n' :: more) := by
  induction fuel generalizing cs fuel' with
  | zero =>
    cases h
    exact absurd (.inl (List.eq_nil_of_length_eq_zero (Nat.le_zero.1 long))) tight
  | succ fuel ih =>
    have blanks := length_skipBlanks cs
    rw [List.length_append, List.length_cons] at long'
    obtain ⟨fuel', rfl⟩ : ∃ n, fuel' = n + 1 := ⟨fuel' - 1, by omega⟩
    rw [skipLines_succ] at h ⊢
    simp only [skipBlanks_followed, head?_followed (show '#' ≠ '\n' by decide)]
    split at h
    · rename_i comment
      obtain ⟨behind, hbreak, h⟩ := Option.bind_eq_some_iff.1 h
      have := length_of_break? hbreak
      have := length_skipComment (skipBlanks cs)
      rw [if_pos comment, skipComment_followed, break?_followed hbreak]
      exact ih (by omega) (by simp; omega) h
    · rename_i comment
      rw [if_neg comment]
      split at h
      · rename_i behind hbreak
        have := length_of_break? hbreak
        rw [break?_followed hbreak]
        exact ih (by omega) (by simp; omega) h
      · rename_i hbreak
        cases h
        rw [break?_followed_of_none hbreak tight]

/-- What a list or a table in a value reads one by one: it begins on a line. -/
structure IsItem {α : Type} (f : Reader α) : Prop extends IsLinewise f where
  tight : ∀ {cs rest v}, f cs = some (v, rest) → ¬ IsLoose cs

/-- What is behind an item of a list: a comma and another item, or the end. -/
def readMoreItems (next : List Value → Reader (List Value)) (acc : List Value) : Reader (List Value) := fun cs =>
  (skipLines cs.length cs).bind fun rest =>
    match rest with
    | ',' :: rest => next acc rest
    | ']' :: rest => some (acc.reverse, rest)
    | _ => none

/-- The items of a list, at the first of which nothing is skipped any more. -/
def readItemsHere (item : Reader Value) (next : List Value → Reader (List Value)) (acc : List Value) :
    Reader (List Value)
  | ']' :: rest => some (acc.reverse, rest)
  | cs => (item cs).bind fun x => readMoreItems next (x.1 :: acc) x.2

theorem readItems_succ (item : Reader Value) (fuel : Nat) (acc : List Value) (cs : List Char) :
    readItems item (fuel + 1) acc cs =
      (skipLines cs.length cs).bind (readItemsHere item (readItems item fuel) acc) := rfl

theorem skipLines_all_followed (h : skipLines cs.length cs = some rest) (tight : ¬ IsLoose rest) (more : List Char) :
    skipLines (cs ++ '\n' :: more).length (cs ++ '\n' :: more) = some (rest ++ '\n' :: more) :=
  skipLines_followed (Nat.le_refl _) (Nat.le_refl _) h tight

section

variable {item : Reader Value} {next : List Value → Reader (List Value)} {acc : List Value}

theorem readMoreItems_linewise (hnext : IsLinewise (next acc)) : IsLinewise (readMoreItems next acc) where
  shorter {cs rest v} h := by
    obtain ⟨behind, hskip, h⟩ := Option.bind_eq_some_iff.1 h
    have hskip := length_skipLines hskip
    split at h
    · exact Nat.le_trans (hnext.shorter h) (Nat.le_trans (Nat.le_succ _) hskip)
    · cases h
      exact Nat.le_trans (Nat.le_succ _) hskip
    · cases h
  followed {cs rest v} h more := by
    obtain ⟨behind, hskip, h⟩ := Option.bind_eq_some_iff.1 h
    refine Option.bind_eq_some_iff.2 ⟨behind ++ '\n' :: more, ?_, ?_⟩
    · refine skipLines_all_followed hskip ?_ more
      rintro (rfl | rfl) <;> cases h
    · split at h
      · exact hnext.followed h more
      · cases h
        rfl
      · cases h

theorem readItemsHere_cons_of_ne {c : Char} (h : c ≠ ']') (cs : List Char) :
    readItemsHere item next acc (c :: cs) = (item (c :: cs)).bind fun x => readMoreItems next (x.1 :: acc) x.2 := by
  unfold readItemsHere
  split
  · exact absurd (List.cons.inj ‹_›).1 h
  · rfl

theorem readItemsHere_item (hitem : IsItem item) (hnext : ∀ acc, IsLinewise (next acc)) :
    IsItem (readItemsHere item next acc) where
  shorter {cs rest v} h := by
    unfold readItemsHere at h
    split at h
    · cases h
      exact Nat.le_succ _
    · exact (hitem.bind fun v => readMoreItems_linewise (hnext (v :: acc))).shorter h
  followed {cs rest v} h more := by
    match cs with
    | [] =>
      obtain ⟨x, hx, -⟩ := Option.bind_eq_some_iff.1 h
      exact absurd (.inl rfl) (hitem.tight hx)
    | c :: cs =>
      by_cases hc : c = ']'
      · subst hc
        cases h
        rfl
      · rw [readItemsHere_cons_of_ne hc] at h
        rw [List.cons_append, readItemsHere_cons_of_ne hc]
        exact (hitem.bind fun v => readMoreItems_linewise (hnext (v :: acc))).followed h more
  tight {cs rest v} h := by
    unfold readItemsHere at h
    split at h
    · rintro (h' | h') <;> cases h'
    · obtain ⟨x, hx, -⟩ := Option.bind_eq_some_iff.1 h
      exact hitem.tight hx

theorem readItems_linewise (hitem : IsItem item) (fuel : Nat) (acc : List Value) :
    IsLinewise (readItems item fuel acc) := by
  induction fuel generalizing acc with
  | zero => exact ⟨nofun, nofun⟩
  | succ fuel ih =>
    have here : IsItem (readItemsHere item (readItems item fuel) acc) := readItemsHere_item hitem ih
    refine ⟨fun h => ?_, fun h more => ?_⟩ <;> rw [readItems_succ] at h <;>
      obtain ⟨behind, hskip, h⟩ := Option.bind_eq_some_iff.1 h
    · exact Nat.le_trans (here.shorter h) (length_skipLines hskip)
    · rw [readItems_succ]
      exact Option.bind_eq_some_iff.2
        ⟨_, skipLines_all_followed hskip (here.tight h) more, here.followed h more⟩

/-- Items that are read with some fuel are read with more. -/
theorem readItems_fuel {fuel fuel' : Nat} {x : List Value × List Char} (le : fuel ≤ fuel')
    (h : readItems item fuel acc cs = some x) : readItems item fuel' acc cs = some x := by
  induction fuel generalizing fuel' acc cs with
  | zero => cases h
  | succ fuel ih =>
    obtain ⟨fuel', rfl⟩ : ∃ n, fuel' = n + 1 := ⟨fuel' - 1, by omega⟩
    have le : fuel ≤ fuel' := Nat.le_of_succ_le_succ le
    obtain ⟨behind, hskip, h⟩ := Option.bind_eq_some_iff.1 h
    refine Option.bind_eq_some_iff.2 ⟨behind, hskip, ?_⟩
    simp only at h ⊢
    split at h
    · exact h
    · obtain ⟨⟨v, cs₂⟩, hv, h⟩ := Option.bind_eq_some_iff.1 h
      obtain ⟨cs₃, hskip', h⟩ := Option.bind_eq_some_iff.1 h
      refine Option.bind_eq_some_iff.2 ⟨_, hv, Option.bind_eq_some_iff.2 ⟨cs₃, hskip', ?_⟩⟩
      simp only at h ⊢
      split at h
      · exact ih le h
      · exact h
      · exact h

end

/-! ## Tables in values -/

/-- What is behind an entry of a table in a value: a comma and another entry, or the end. -/
def readMorePairs (next : Entries → Reader Entries) (acc : Entries) : Reader Entries := fun cs =>
  match skipBlanks cs with
  | ',' :: rest => next acc rest
  | '}' :: rest => some (acc, rest)
  | _ => none

theorem readPairs_succ (value : Reader Value) (fuel : Nat) (acc : Entries) (cs : List Char) :
    readPairs value (fuel + 1) acc cs = (readEntry value cs).bind fun x =>
      (acc.insert x.1.1.1 x.1.1.2 x.1.2).bind fun acc => readMorePairs (readPairs value fuel) acc x.2 := rfl

theorem readMorePairs_linewise {next : Entries → Reader Entries} {acc : Entries} (hnext : IsLinewise (next acc)) :
    IsLinewise (readMorePairs next acc) where
  shorter {cs rest v} h := by
    have blanks := length_skipBlanks cs
    unfold readMorePairs at h
    split at h
    · rename_i behind
      rw [behind] at blanks
      exact Nat.le_trans (hnext.shorter h) (Nat.le_trans (Nat.le_succ _) blanks)
    · rename_i behind
      rw [behind] at blanks
      cases h
      exact Nat.le_trans (Nat.le_succ _) blanks
    · cases h
  followed {cs rest v} h more := by
    unfold readMorePairs at h ⊢
    rw [skipBlanks_followed]
    split at h
    · rename_i behind
      rw [behind]
      exact hnext.followed h more
    · rename_i behind
      rw [behind]
      cases h
      rfl
    · cases h

theorem readPairs_linewise {value : Reader Value} (hvalue : IsLinewise value) (fuel : Nat) (acc : Entries) :
    IsLinewise (readPairs value fuel acc) := by
  induction fuel generalizing acc with
  | zero => exact ⟨nofun, nofun⟩
  | succ fuel ih =>
    refine ⟨fun h => ?_, fun h more => ?_⟩ <;> rw [readPairs_succ] at h <;>
      obtain ⟨⟨⟨⟨path, key⟩, v⟩, behind⟩, hentry, h⟩ := Option.bind_eq_some_iff.1 h <;>
      obtain ⟨acc', hinsert, h⟩ := Option.bind_eq_some_iff.1 h
    · exact Nat.le_trans ((readMorePairs_linewise (ih acc')).shorter h) ((readEntry_linewise hvalue).shorter hentry)
    · rw [readPairs_succ]
      exact Option.bind_eq_some_iff.2 ⟨_, (readEntry_linewise hvalue).followed hentry more,
        Option.bind_eq_some_iff.2 ⟨_, hinsert, (readMorePairs_linewise (ih acc')).followed h more⟩⟩

theorem readPairs_fuel {value : Reader Value} {fuel fuel' : Nat} {acc : Entries} {x : Entries × List Char}
    (le : fuel ≤ fuel') (h : readPairs value fuel acc cs = some x) : readPairs value fuel' acc cs = some x := by
  induction fuel generalizing fuel' acc cs with
  | zero => cases h
  | succ fuel ih =>
    obtain ⟨fuel', rfl⟩ : ∃ n, fuel' = n + 1 := ⟨fuel' - 1, by omega⟩
    have le : fuel ≤ fuel' := Nat.le_of_succ_le_succ le
    obtain ⟨⟨⟨⟨path, key⟩, v⟩, behind⟩, hentry, h⟩ := Option.bind_eq_some_iff.1 h
    obtain ⟨acc', hinsert, h⟩ := Option.bind_eq_some_iff.1 h
    refine Option.bind_eq_some_iff.2 ⟨_, hentry, Option.bind_eq_some_iff.2 ⟨_, hinsert, ?_⟩⟩
    split at h
    · exact ih le h
    · exact h
    · exact h

/-! ## Values -/

theorem readValue_of_number {c : Char} (h : c = '+' ∨ c = '-' ∨ (digitValue? 10 c).isSome) (depth : Nat)
    (cs : List Char) : readValue depth (c :: cs) = readNumber (c :: cs) := by
  rw [readValue.eq_def]
  split
  all_goals first
    | rfl
    | (obtain ⟨rfl, -⟩ := List.cons.inj ‹_›
       exact absurd h (by decide))

/-- A list behind its opening bracket. -/
def readList (item : Reader Value) : Reader Value := fun cs =>
  (readItems item (cs.length + 1) [] cs).map fun (vs, rest) => (.list vs, rest)

theorem readList_linewise {item : Reader Value} (hitem : IsItem item) : IsLinewise (readList item) where
  shorter h := by
    obtain ⟨x, hx, he⟩ := Option.map_eq_some_iff.1 h
    cases he
    exact (readItems_linewise hitem _ _).shorter hx
  followed h more := by
    obtain ⟨x, hx, he⟩ := Option.map_eq_some_iff.1 h
    cases he
    refine Option.map_eq_some_iff.2 ⟨_, readItems_fuel ?_ ((readItems_linewise hitem _ _).followed hx more), rfl⟩
    simp

/-- A table that is written as a value, behind its opening bracket. -/
def readTable (value : Reader Value) : Reader Value := fun cs =>
  match skipBlanks cs with
  | '}' :: rest => some (.table .inline [], rest)
  | rest => (readPairs value (rest.length + 1) [] rest).map fun (es, rest) => (.table .inline es, rest)

theorem readTable_of_ne {value : Reader Value} (h : (skipBlanks cs).head? ≠ some '}') : readTable value cs =
    (readPairs value ((skipBlanks cs).length + 1) [] (skipBlanks cs)).map fun (es, rest) =>
      (.table .inline es, rest) := by
  unfold readTable
  split
  · rename_i h'
    exact absurd (by rw [h']; rfl) h
  · rfl

theorem readTable_linewise {value : Reader Value} (hvalue : IsLinewise value) : IsLinewise (readTable value) where
  shorter {cs rest v} h := by
    have blanks := length_skipBlanks cs
    unfold readTable at h
    split at h
    · rename_i close
      cases h
      rw [close] at blanks
      exact Nat.le_trans (Nat.le_succ _) blanks
    · obtain ⟨x, hx, he⟩ := Option.map_eq_some_iff.1 h
      cases he
      exact Nat.le_trans ((readPairs_linewise hvalue _ _).shorter hx) blanks
  followed {cs rest v} h more := by
    by_cases close : (skipBlanks cs).head? = some '}'
    · obtain ⟨behind, hbehind⟩ := List.head?_eq_some_iff.1 close
      unfold readTable at h ⊢
      rw [hbehind] at h
      rw [skipBlanks_followed, hbehind]
      cases h
      rfl
    · rw [readTable_of_ne close] at h
      have close' : (skipBlanks (cs ++ '\n' :: more)).head? ≠ some '}' := by
        rwa [skipBlanks_followed, ne_eq, head?_followed (by decide)]
      obtain ⟨x, hx, he⟩ := Option.map_eq_some_iff.1 h
      cases he
      rw [readTable_of_ne close', skipBlanks_followed]
      refine Option.map_eq_some_iff.2 ⟨_, readPairs_fuel ?_ ((readPairs_linewise hvalue _ _).followed hx more), rfl⟩
      simp

/-- One level of nesting. -/
theorem readValue_item_of {depth : Nat} (inner : ∀ d, depth = d + 1 → IsItem (readValue d)) :
    IsItem (readValue depth) := by
  refine ⟨⟨fun {cs rest v} h => ?_, fun {cs rest v} h more => ?_⟩, fun {cs rest v} h => ?_⟩
  · rw [readValue.eq_def] at h
    split at h
    · exact ((readText_linewise .double).map Value.text).shorter h
    · exact ((readText_linewise .single).map Value.text).shorter h
    · rename_i d cs
      exact Nat.le_succ_of_le ((readList_linewise (inner d rfl)).shorter h)
    · rename_i d cs
      exact Nat.le_succ_of_le ((readTable_linewise (inner d rfl).toIsLinewise).shorter h)
    iterate 4
      cases h
      simp only [List.length_cons]
      omega
    · exact readNumber_linewise.shorter h
  · rw [readValue.eq_def] at h
    split at h
    · have found := ((readText_linewise .double).map Value.text).followed h more
      cases depth <;> exact found
    · have found := ((readText_linewise .single).map Value.text).followed h more
      cases depth <;> exact found
    · rename_i d cs
      exact (readList_linewise (inner d rfl)).followed h more
    · rename_i d cs
      exact (readTable_linewise (inner d rfl).toIsLinewise).followed h more
    iterate 4
      cases h
      cases depth <;> rfl
    · obtain ⟨c, cs, rfl, hc⟩ := exists_of_readNumber h
      rw [List.cons_append, readValue_of_number hc]
      exact readNumber_linewise.followed h more
  · rw [readValue.eq_def] at h
    rintro (rfl | rfl)
    · cases h
    · cases h

theorem readValue_item (depth : Nat) : IsItem (readValue depth) := by
  induction depth with
  | zero => exact readValue_item_of nofun
  | succ depth ih =>
    refine readValue_item_of fun d hd => ?_
    cases hd
    exact ih

/-! ## What values are -/

/-- A value that nothing can be added to by a key with dots. -/
def Value.IsClosed : Value → Prop
  | .table origin _ => origin = .inline
  | .tables _ => False
  | _ => True

theorem integer?_isClosed {n : Int} {v : Value} (h : integer? n = some v) : v.IsClosed := by
  obtain ⟨-, h⟩ := Option.ite_none_right_eq_some.1 h
  cases h
  trivial

theorem double?_isClosed {negative : Bool} {digits : Nat} {power : Int} {v : Value}
    (h : double? negative digits power = some v) : v.IsClosed := by
  obtain ⟨-, h⟩ := Option.ite_none_left_eq_some.1 h
  cases h
  trivial

theorem readDecimal_isClosed {negative : Bool} {v : Value} (h : readDecimal negative cs = some (v, rest)) :
    v.IsClosed := by
  obtain ⟨⟨whole, behind⟩, -, h⟩ := Option.bind_eq_some_iff.1 h
  obtain ⟨⟨places, rest₁⟩, -, h⟩ := Option.bind_eq_some_iff.1 h
  obtain ⟨⟨power, rest₂⟩, -, h⟩ := Option.bind_eq_some_iff.1 h
  simp only at h
  split at h
  · obtain ⟨w, hw, h⟩ := Option.bind_eq_some_iff.1 h
    cases h
    exact integer?_isClosed hw
  · obtain ⟨w, hw, h⟩ := Option.bind_eq_some_iff.1 h
    cases h
    exact double?_isClosed hw

theorem readBased_isClosed {base : Nat} {v : Value} (h : readBased base cs = some (v, rest)) : v.IsClosed := by
  obtain ⟨⟨digits, behind⟩, -, h⟩ := Option.bind_eq_some_iff.1 h
  obtain ⟨w, hw, h⟩ := Option.bind_eq_some_iff.1 h
  cases h
  exact integer?_isClosed hw

theorem readNumber_isClosed {v : Value} (h : readNumber cs = some (v, rest)) : v.IsClosed := by
  rw [readNumber_eq] at h
  split at h
  · obtain ⟨x, -, he⟩ := Option.map_eq_some_iff.1 h
    cases he
    trivial
  · split at h
    · unfold readSigned at h
      split at h
      iterate 2
        cases h
        trivial
      exact readDecimal_isClosed h
    · unfold readUnsigned at h
      split at h
      iterate 3 exact readBased_isClosed h
      exact readDecimal_isClosed h

theorem readValue_isClosed {depth : Nat} {v : Value} (h : readValue depth cs = some (v, rest)) : v.IsClosed := by
  rw [readValue.eq_def] at h
  split at h
  · obtain ⟨x, -, he⟩ := Option.map_eq_some_iff.1 h
    cases he
    trivial
  · obtain ⟨x, -, he⟩ := Option.map_eq_some_iff.1 h
    cases he
    trivial
  · obtain ⟨x, -, he⟩ := Option.map_eq_some_iff.1 h
    cases he
    trivial
  · split at h
    · cases h
      rfl
    · obtain ⟨x, -, he⟩ := Option.map_eq_some_iff.1 h
      cases he
      rfl
  iterate 4
    cases h
    trivial
  · exact readNumber_isClosed h

end Telemetry.Toml
