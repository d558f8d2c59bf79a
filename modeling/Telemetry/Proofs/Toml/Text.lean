/-
Lines behind lines. What is read on the last line of a text is read there as well when other lines follow:
no reader looks beyond a line break unless it goes on to read there. A reader with this property is linewise
(`IsLinewise`). The readers of texts between quotes are, also those over several lines, for which a line break
is a character like others: they have to come to the closing quotes.
-/
import Telemetry.Toml.Text

namespace Telemetry.Toml

variable {α β : Type} {cs rest more : List Char} {q : Quotes}

/-- What is found before the end of a text is found as well when a line break and more text follow, and what
is behind it is no longer than the text. -/
structure IsLinewise (f : Reader α) : Prop where
  shorter : ∀ {cs rest v}, f cs = some (v, rest) → rest.length ≤ cs.length
  followed : ∀ {cs rest v}, f cs = some (v, rest) → ∀ more, f (cs ++ '\n' :: more) = some (v, rest ++ '\n' :: more)

/-- The same of what only tells what is behind something. -/
structure IsPassing (f : List Char → Option (List Char)) : Prop where
  shorter : ∀ {cs rest}, f cs = some rest → rest.length ≤ cs.length
  followed : ∀ {cs rest}, f cs = some rest → ∀ more, f (cs ++ '\n' :: more) = some (rest ++ '\n' :: more)

/-! ## One reader behind another -/

section

variable {f : Reader α} {p r : List Char → Option (List Char)}

theorem IsLinewise.bind {g : α → Reader β} (hf : IsLinewise f) (hg : ∀ a, IsLinewise (g a)) :
    IsLinewise fun cs => (f cs).bind fun x => g x.1 x.2 where
  shorter h := by
    obtain ⟨x, hx, h⟩ := Option.bind_eq_some_iff.1 h
    exact Nat.le_trans ((hg x.1).shorter h) (hf.shorter hx)
  followed h more := by
    obtain ⟨x, hx, h⟩ := Option.bind_eq_some_iff.1 h
    exact Option.bind_eq_some_iff.2 ⟨_, hf.followed hx more, (hg x.1).followed h more⟩

theorem IsLinewise.map (hf : IsLinewise f) (g : α → β) : IsLinewise fun cs => (f cs).map fun x => (g x.1, x.2) where
  shorter h := by
    obtain ⟨x, hx, he⟩ := Option.map_eq_some_iff.1 h
    cases he
    exact hf.shorter hx
  followed h more := by
    obtain ⟨x, hx, he⟩ := Option.map_eq_some_iff.1 h
    cases he
    exact Option.map_eq_some_iff.2 ⟨_, hf.followed hx more, rfl⟩

/-- What is made of something that was read, if anything can be made of it. -/
theorem IsLinewise.weigh {γ : Type} (hf : IsLinewise f) (g : α → Option β) (k : α → β → γ) :
    IsLinewise fun cs => (f cs).bind fun x => (g x.1).bind fun b => some (k x.1 b, x.2) where
  shorter h := by
    obtain ⟨x, hx, h⟩ := Option.bind_eq_some_iff.1 h
    obtain ⟨b, -, h⟩ := Option.bind_eq_some_iff.1 h
    cases h
    exact hf.shorter hx
  followed h more := by
    obtain ⟨x, hx, h⟩ := Option.bind_eq_some_iff.1 h
    obtain ⟨b, hb, h⟩ := Option.bind_eq_some_iff.1 h
    cases h
    exact Option.bind_eq_some_iff.2 ⟨_, hf.followed hx more, Option.bind_eq_some_iff.2 ⟨b, hb, rfl⟩⟩

theorem IsLinewise.pass {g : α → List Char → Option (List Char)} (hf : IsLinewise f) (hg : ∀ a, IsPassing (g a)) :
    IsPassing fun cs => (f cs).bind fun x => g x.1 x.2 where
  shorter h := by
    obtain ⟨x, hx, h⟩ := Option.bind_eq_some_iff.1 h
    exact Nat.le_trans ((hg x.1).shorter h) (hf.shorter hx)
  followed h more := by
    obtain ⟨x, hx, h⟩ := Option.bind_eq_some_iff.1 h
    exact Option.bind_eq_some_iff.2 ⟨_, hf.followed hx more, (hg x.1).followed h more⟩

theorem IsPassing.pass (hp : IsPassing p) (hr : IsPassing r) : IsPassing fun cs => (p cs).bind r where
  shorter h := by
    obtain ⟨x, hx, h⟩ := Option.bind_eq_some_iff.1 h
    exact Nat.le_trans (hr.shorter h) (hp.shorter hx)
  followed h more := by
    obtain ⟨x, hx, h⟩ := Option.bind_eq_some_iff.1 h
    exact Option.bind_eq_some_iff.2 ⟨_, hp.followed hx more, hr.followed h more⟩

theorem isPassing_some : IsPassing some where
  shorter h := by
    cases h
    exact Nat.le_refl _
  followed h more := by
    cases h
    rfl

theorem isPassing_of_holds (b : Prop) [Decidable b] : IsPassing fun cs => if b then some cs else none where
  shorter h := by
    obtain ⟨-, h⟩ := Option.ite_none_right_eq_some.1 h
    cases h
    exact Nat.le_refl _
  followed h more := by
    obtain ⟨hb, h⟩ := Option.ite_none_right_eq_some.1 h
    cases h
    exact if_pos hb

end

/-! ## Blanks, comments and ends of lines -/

theorem dropWhile_followed {p : Char → Bool} (stops : p '\n' = false) (cs more : List Char) :
    (cs ++ '\n' :: more).dropWhile p = cs.dropWhile p ++ '\n' :: more := by
  induction cs with
  | nil => simp [stops]
  | cons c cs ih =>
    rw [List.cons_append, List.dropWhile_cons, List.dropWhile_cons]
    split
    · exact ih
    · rfl

theorem takeWhile_followed {p : Char → Bool} (stops : p '\n' = false) (cs more : List Char) :
    (cs ++ '\n' :: more).takeWhile p = cs.takeWhile p := by
  induction cs with
  | nil => simp [stops]
  | cons c cs ih =>
    rw [List.cons_append, List.takeWhile_cons, List.takeWhile_cons, ih]

@[simp] theorem skipBlanks_followed (cs more : List Char) :
    skipBlanks (cs ++ '\n' :: more) = skipBlanks cs ++ '\n' :: more :=
  dropWhile_followed (by decide) cs more

theorem length_skipBlanks (cs : List Char) : (skipBlanks cs).length ≤ cs.length :=
  (List.dropWhile_sublist _).length_le

theorem skipComment_cons_of_ne {c : Char} (h : c ≠ '#') (cs : List Char) : skipComment (c :: cs) = c :: cs := by
  unfold skipComment
  split
  · exact absurd (List.cons.inj ‹_›).1 h
  · rfl

@[simp] theorem skipComment_followed (cs more : List Char) :
    skipComment (cs ++ '\n' :: more) = skipComment cs ++ '\n' :: more := by
  cases cs with
  | nil => rfl
  | cons c cs =>
    by_cases h : c = '#'
    · subst h
      exact dropWhile_followed (by decide) cs more
    · rw [List.cons_append, skipComment_cons_of_ne h, skipComment_cons_of_ne h, List.cons_append]

theorem length_skipComment (cs : List Char) : (skipComment cs).length ≤ cs.length := by
  unfold skipComment
  split
  · exact Nat.le_succ_of_le (List.dropWhile_sublist _).length_le
  · exact Nat.le_refl _

theorem break?_followed (h : break? cs = some rest) (more : List Char) :
    break? (cs ++ '\n' :: more) = some (rest ++ '\n' :: more) := by
  unfold break? at h
  split at h <;> cases h <;> rfl

/-- Texts that may be gone on with behind a line break: there is nothing left, or half a line break. -/
def IsLoose (cs : List Char) : Prop := cs = [] ∨ cs = ['\r']

theorem cases_of_tight (tight : ¬ IsLoose cs) :
    (∃ c, c ≠ '\r' ∧ cs = [c]) ∨ ∃ c d behind, cs = c :: d :: behind := by
  cases cs with
  | nil => exact absurd (.inl rfl) tight
  | cons c cs =>
    cases cs with
    | nil => exact .inl ⟨c, fun h => tight (.inr (congrArg ([·]) h)), rfl⟩
    | cons d behind => exact .inr ⟨c, d, behind, rfl⟩

theorem break?_followed_of_none (h : break? cs = none) (tight : ¬ IsLoose cs) (more : List Char) :
    break? (cs ++ '\n' :: more) = none := by
  obtain ⟨c, hc, rfl⟩ | ⟨c, d, behind, rfl⟩ := cases_of_tight tight
  · unfold break?
    split <;> simp_all [break?]
  · unfold break?
    split <;> simp_all [break?]

theorem skipBreaks_followed (tight : ¬ IsLoose (skipBreaks cs)) (more : List Char) :
    skipBreaks (cs ++ '\n' :: more) = skipBreaks cs ++ '\n' :: more := by
  fun_induction skipBreaks cs with
  | case1 rest ih => exact ih tight
  | case2 rest ih => exact ih tight
  | case3 rest ih => exact ih tight
  | case4 rest ih => exact ih tight
  | case5 cs =>
    obtain ⟨c, hc, rfl⟩ | ⟨c, d, behind, rfl⟩ := cases_of_tight tight
    · unfold skipBreaks
      split <;> simp_all
    · unfold skipBreaks
      split <;> simp_all

/-! ## Digits -/

@[simp] theorem digitValue?_break (base : Nat) : digitValue? base '\n' = none := by simp [digitValue?]

theorem length_of_mapM {f : α → Option β} {xs : List α} {ys : List β} (h : xs.mapM f = some ys) :
    ys.length = xs.length := by
  induction xs generalizing ys with
  | nil => cases h; rfl
  | cons x xs ih =>
    rw [List.mapM_cons] at h
    obtain ⟨y, -, h⟩ := Option.bind_eq_some_iff.1 h
    obtain ⟨zs, hzs, h⟩ := Option.bind_eq_some_iff.1 h
    cases h
    exact congrArg (· + 1) (ih hzs)

theorem mapM_eq_none {f : α → Option β} {xs ys : List α} {y : α} (h : f y = none) :
    (xs ++ y :: ys).mapM f = none := by
  induction xs with
  | nil => rw [List.nil_append, List.mapM_cons, h]; rfl
  | cons x xs ih =>
    rw [List.cons_append, List.mapM_cons, ih]
    cases f x <;> rfl

/-- Digits of a fixed number end before a line break. -/
theorem mapM_digits_followed (base width : Nat) (cs more : List Char) :
    ((cs ++ '\n' :: more).take width).mapM (digitValue? base) =
      if width ≤ cs.length then (cs.take width).mapM (digitValue? base) else none := by
  split
  · rename_i h
    rw [List.take_append_of_le_length h]
  · rename_i h
    obtain ⟨n, hn⟩ := Nat.exists_eq_add_of_lt (Nat.lt_of_not_le h)
    rw [List.take_append, List.take_of_length_le (by omega), show width - cs.length = n + 1 by omega,
      List.take_succ_cons]
    exact mapM_eq_none (digitValue?_break base)

theorem numbered?_linewise (width : Nat) : IsLinewise (numbered? width) where
  shorter h := length_of_numbered? h
  followed {cs rest v} h more := by
    unfold numbered? at h ⊢
    rw [mapM_digits_followed]
    split at h
    · cases h
    · rename_i digits hdigits
      split at h
      · rename_i full
        have long : width ≤ cs.length := by
          have := length_of_mapM hdigits
          rw [List.length_take] at this
          omega
        obtain ⟨c, hc, he⟩ := Option.map_eq_some_iff.1 h
        cases he
        simp only [if_pos long, hdigits, if_pos full, hc, List.drop_append_of_le_length long, Option.map_some]
      · cases h

theorem escaped?_linewise : IsLinewise escaped? where
  shorter h := Nat.le_of_lt (length_of_escaped? h)
  followed h more := by
    unfold escaped? at h
    split at h
    all_goals first
      | exact (numbered?_linewise _).followed h more
      | cases h <;> rfl

/-! ## Texts between quotes -/

@[simp] theorem readLine_nil (q : Quotes) (acc : List Char) : readLine q acc [] = none := by
  rw [readLine.eq_def]

theorem readLine_linewise (q : Quotes) (acc : List Char) : IsLinewise (readLine q acc) where
  shorter {cs rest v} h := by
    fun_induction readLine q acc cs with
    | case1 => cases h
    | case2 => cases h; simp
    | case3 acc c rest' hm hb e rest'' he ih =>
      have := length_of_escaped? he
      have := ih h
      simp only [List.length_cons]
      omega
    | case4 => cases h
    | case5 acc c rest' hm hb hp ih =>
      have := ih h
      simp only [List.length_cons]
      omega
    | case6 => cases h
  followed {cs rest v} h more := by
    fun_induction readLine q acc cs with
    | case1 => cases h
    | case2 acc rest' =>
      cases h
      rw [List.cons_append, readLine, if_pos rfl]
    | case3 acc c rest' hm hb e rest'' he ih =>
      rw [List.cons_append, readLine, if_neg hm, if_pos hb]
      split
      · rename_i he'
        cases (escaped?_linewise.followed he more).symm.trans he'
        exact ih h
      · rename_i he'
        cases (escaped?_linewise.followed he more).symm.trans he'
    | case4 => cases h
    | case5 acc c rest' hm hb hp ih =>
      rw [List.cons_append, readLine, if_neg hm, if_neg hb, if_pos hp]
      exact ih h
    | case6 => cases h

theorem closing?_followed (q : Quotes) (cs more : List Char) :
    closing? q (cs ++ '\n' :: more) = (closing? q cs).map fun (n, rest) => (n, rest ++ '\n' :: more) := by
  have stops : decide ('\n' = q.mark) = false := by cases q <;> decide
  have run : ((cs ++ '\n' :: more).take 5).takeWhile (· = q.mark) = (cs.take 5).takeWhile (· = q.mark) := by
    by_cases long : 5 ≤ cs.length
    · rw [List.take_append_of_le_length long]
    · obtain ⟨n, hn⟩ := Nat.exists_eq_add_of_lt (Nat.lt_of_not_le long)
      rw [List.take_append, List.take_of_length_le (by omega), show 5 - cs.length = n + 1 by omega,
        List.take_succ_cons]
      exact takeWhile_followed stops cs _
  have short : ((cs.take 5).takeWhile (· = q.mark)).length ≤ cs.length :=
    ((List.takeWhile_sublist _).trans (List.take_sublist _ _)).length_le
  unfold closing?
  simp only [run, List.drop_append_of_le_length short]
  split <;> rfl

theorem closing?_cons_followed {c : Char} (h : closing? q (c :: cs) = none) (more : List Char) :
    closing? q (c :: (cs ++ '\n' :: more)) = none := by
  rw [← List.cons_append, closing?_followed, h]
  rfl

theorem length_of_closing? {n : Nat} (h : closing? q cs = some (n, rest)) : rest.length ≤ cs.length := by
  unfold closing? at h
  simp only at h
  split at h
  · cases h
    exact (List.drop_sublist _ _).length_le
  · cases h

theorem break?_cons_of_ne {c : Char} (h : c ≠ '\n') (h' : c ≠ '\r') (cs : List Char) : break? (c :: cs) = none := by
  unfold break?
  split <;> simp_all

theorem continued?_followed (h : continued? cs = some rest) (tight : ¬ IsLoose rest) (more : List Char) :
    continued? (cs ++ '\n' :: more) = some (rest ++ '\n' :: more) := by
  obtain ⟨behind, hbreak, rfl⟩ := Option.map_eq_some_iff.1 h
  unfold continued?
  rw [skipBlanks_followed, break?_followed hbreak, Option.map_some, skipBreaks_followed tight]

theorem continued?_of_escaped {c : Char} (h : escaped? cs = some (c, rest)) : continued? cs = none := by
  unfold escaped? at h
  split at h
  all_goals first
    | rfl
    | cases h

section

variable {acc : List Char} {c : Char}

theorem readLines_of_closing {extra : Nat} (h : closing? q cs = some (extra, rest)) :
    readLines q acc cs = some (String.ofList (acc.reverse ++ List.replicate extra q.mark), rest) := by
  rw [readLines]
  split
  · rename_i h'
    cases h.symm.trans h'
    rfl
  · rename_i h'
    cases h.symm.trans h'

theorem readLines_of_break (unclosed : closing? q cs = none) (h : break? cs = some rest) :
    readLines q acc cs = readLines q ('\n' :: acc) rest := by
  rw [readLines, unclosed]
  simp only
  split
  · rename_i h'
    cases h.symm.trans h'
    rfl
  · rename_i h'
    cases h.symm.trans h'

theorem readLines_cons (unclosed : closing? q (c :: cs) = none) (h : break? (c :: cs) = none) :
    readLines q acc (c :: cs) =
      if c = '\\' ∧ q = .double then
        match continued? cs with
        | some rest => readLines q acc rest
        | none => (escaped? cs).bind fun (e, rest) => readLines q (e :: acc) rest
      else if isPrintable c then readLines q (c :: acc) cs
      else none := by
  rw [readLines, unclosed]
  simp only
  split
  · rename_i h'
    cases h.symm.trans h'
  · split
    · split
      · rename_i h'
        rw [h']
      · rename_i h'
        rw [h']
        split <;> rename_i h'' <;> rw [h''] <;> rfl
    · rfl

end

theorem not_isLoose_of_readLines {acc : List Char} {s : String} (h : readLines q acc cs = some (s, rest)) :
    ¬ IsLoose cs := by
  rintro (rfl | rfl)
  · rw [readLines] at h
    cases q <;> cases h
  · rw [readLines] at h
    cases q <;> cases h

theorem readLines_linewise (q : Quotes) (acc : List Char) : IsLinewise (readLines q acc) where
  shorter {cs rest v} h := by
    fun_induction readLines q acc cs with
    | case1 acc cs extra rest' closing =>
      cases h
      exact length_of_closing? closing
    | case2 acc cs unclosed rest' hbreak ih =>
      exact Nat.le_trans (ih h) (Nat.le_of_lt (length_of_break? hbreak))
    | case3 => cases h
    | case4 acc c cs hbreak escape rest' continued unclosed ih =>
      exact Nat.le_trans (ih h) (Nat.le_succ_of_le (Nat.le_of_lt (length_of_continued? continued)))
    | case5 acc c cs hbreak escape continued e rest' escaped unclosed ih =>
      exact Nat.le_trans (ih h) (Nat.le_succ_of_le (Nat.le_of_lt (length_of_escaped? escaped)))
    | case6 => cases h
    | case7 acc c cs hbreak plain printable unclosed ih => exact Nat.le_succ_of_le (ih h)
    | case8 => cases h
  followed {cs rest v} h more := by
    fun_induction readLines q acc cs with
    | case1 acc cs extra rest' closing =>
      cases h
      exact readLines_of_closing (by rw [closing?_followed, closing]; rfl)
    | case2 acc cs unclosed rest' hbreak ih =>
      rw [readLines_of_break (by rw [closing?_followed, unclosed]; rfl) (break?_followed hbreak more)]
      exact ih h
    | case3 => cases h
    | case4 acc c cs hbreak escape rest' continued unclosed ih =>
      have hplain : break? (c :: (cs ++ '\n' :: more)) = none :=
        break?_cons_of_ne (by rw [escape.1]; decide) (by rw [escape.1]; decide) _
      rw [List.cons_append, readLines_cons (closing?_cons_followed unclosed more) hplain, if_pos escape,
        continued?_followed continued (not_isLoose_of_readLines h)]
      exact ih h
    | case5 acc c cs hbreak escape continued e rest' escaped unclosed ih =>
      have hplain : break? (c :: (cs ++ '\n' :: more)) = none :=
        break?_cons_of_ne (by rw [escape.1]; decide) (by rw [escape.1]; decide) _
      have hescaped := escaped?_linewise.followed escaped more
      rw [List.cons_append, readLines_cons (closing?_cons_followed unclosed more) hplain, if_pos escape,
        continued?_of_escaped hescaped, hescaped]
      exact ih h
    | case6 => cases h
    | case7 acc c cs hbreak plain printable unclosed ih =>
      have hplain : break? (c :: (cs ++ '\n' :: more)) = none := by
        refine break?_cons_of_ne ?_ ?_ _ <;> rintro rfl <;> exact absurd printable (by decide)
      rw [List.cons_append, readLines_cons (closing?_cons_followed unclosed more) hplain, if_neg plain, if_pos printable]
      exact ih h
    | case8 => cases h

/-- Three quotes begin a text over several lines. -/
theorem readText_eq (q : Quotes) (cs : List Char) : readText q (q.mark :: cs) =
    match cs with
    | b :: c :: rest =>
      if b = q.mark ∧ c = q.mark then readLines q [] ((break? rest).getD rest) else readLine q [] (b :: c :: rest)
    | cs => readLine q [] cs := by
  unfold readText
  match cs with
  | [] => simp
  | [_] => simp
  | b :: c :: rest => simp

theorem exists_of_readText {s : String} (h : readText q cs = some (s, rest)) : ∃ behind, cs = q.mark :: behind := by
  unfold readText at h
  simp only at h
  split at h
  · rename_i a b c rest'
    by_cases ha : a = q.mark
    · exact ⟨_, congrArg (· :: _) ha⟩
    · simp [ha] at h
  · rename_i a rest' _
    by_cases ha : a = q.mark
    · exact ⟨_, congrArg (· :: _) ha⟩
    · simp [ha] at h
  · cases h

theorem readText_linewise (q : Quotes) : IsLinewise (readText q) where
  shorter {cs rest v} h := by
    obtain ⟨cs, rfl⟩ := exists_of_readText h
    rw [readText_eq] at h
    split at h
    · rename_i b c behind
      split at h
      · have hlines := (readLines_linewise q []).shorter h
        have hskip : ((break? behind).getD behind).length ≤ behind.length := by
          cases hb : break? behind with
          | none => exact Nat.le_refl _
          | some _ => exact Nat.le_of_lt (length_of_break? hb)
        simp only [List.length_cons]
        omega
      · exact Nat.le_succ_of_le ((readLine_linewise q []).shorter h)
    · exact Nat.le_succ_of_le ((readLine_linewise q []).shorter h)
  followed {cs rest v} h more := by
    obtain ⟨cs, rfl⟩ := exists_of_readText h
    rw [readText_eq] at h
    rw [List.cons_append, readText_eq]
    have hline (same : readLine q [] cs = some (v, rest)) :
        readLine q [] (cs ++ '\n' :: more) = some (v, rest ++ '\n' :: more) :=
      (readLine_linewise q []).followed same more
    match cs with
    | [] => exact absurd h (by simp)
    | [b] =>
      have hbreak : ¬ (b = q.mark ∧ '\n' = q.mark) := by cases q <;> simp [Quotes.mark]
      exact (if_neg hbreak).trans (hline h)
    | b :: c :: behind =>
      by_cases three : b = q.mark ∧ c = q.mark
      · simp only [if_pos three] at h
        have hlines := (readLines_linewise q []).followed h more
        have tight := not_isLoose_of_readLines h
        simp only [List.cons_append, if_pos three]
        cases hb : break? behind with
        | none =>
          rw [hb] at hlines tight
          rw [break?_followed_of_none hb tight]
          exact hlines
        | some rest' =>
          rw [hb] at hlines
          rw [break?_followed hb]
          exact hlines
      · simp only [if_neg three] at h
        exact (if_neg three).trans (hline h)

end Telemetry.Toml
