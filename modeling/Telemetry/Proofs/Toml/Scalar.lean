/-
Numbers and moments are linewise: neither goes beyond the end of its line.
-/
import Telemetry.Toml.Scalar
import Telemetry.Proofs.Toml.Text

namespace Telemetry.Toml

variable {α : Type} {base : Nat} {cs rest more : List Char}

/-! ## Moments -/

namespace Moment

theorem digits?_followed (width : Nat) (cs more : List Char) : digits? width (cs ++ '\n' :: more) =
    (digits? width cs).map fun (n, rest) => (n, rest ++ '\n' :: more) := by
  unfold digits?
  rw [mapM_digits_followed]
  by_cases long : width ≤ cs.length
  · rw [if_pos long, List.drop_append_of_le_length long]
    cases (cs.take width).mapM (digitValue? 10) with
    | none => rfl
    | some ds => by_cases full : ds.length = width <;> simp [full]
  · rw [if_neg long]
    cases h : (cs.take width).mapM (digitValue? 10) with
    | none => rfl
    | some ds =>
      have short := length_of_mapM h
      rw [List.length_take] at short
      simp [show ds.length ≠ width by omega]

theorem digits?_linewise (width : Nat) : IsLinewise (digits? width) where
  shorter {cs rest v} h := by
    unfold digits? at h
    split at h
    · cases h
    · split at h
      · cases h
        exact (List.drop_sublist _ _).length_le
      · cases h
  followed h more := by rw [digits?_followed, h]; rfl

theorem pair?_linewise (least most : Nat) : IsLinewise (pair? least most) where
  shorter {cs rest v} h := by
    unfold pair? at h
    split at h
    · rename_i hdigits
      split at h
      · cases h
        exact (digits?_linewise 2).shorter hdigits
      · cases h
    · cases h
  followed {cs rest v} h more := by
    unfold pair? at h ⊢
    split at h
    · rename_i hdigits
      rw [(digits?_linewise 2).followed hdigits]
      split at h
      · rename_i hbounds
        cases h
        exact if_pos hbounds
      · cases h
    · cases h

theorem mark?_passing (m : Char) : IsPassing (mark? m) where
  shorter {cs rest} h := by
    match cs with
    | [] => cases h
    | c :: cs =>
      obtain ⟨-, h⟩ := Option.ite_none_right_eq_some.1 h
      cases h
      exact Nat.le_succ _
  followed {cs rest} h more := by
    match cs with
    | [] => cases h
    | c :: cs =>
      obtain ⟨hc, h⟩ := Option.ite_none_right_eq_some.1 h
      cases h
      exact if_pos hc

theorem date?_passing : IsPassing date? :=
  (digits?_linewise 4).pass fun year => (mark?_passing '-').pass <|
    (pair?_linewise 1 12).pass fun month => (mark?_passing '-').pass <|
      (pair?_linewise 1 31).pass fun day => isPassing_of_holds (day ≤ daysIn year month)

theorem fraction?_cons_of_ne {c : Char} (h : c ≠ '.') (cs : List Char) : fraction? (c :: cs) = some (c :: cs) := by
  unfold fraction?
  split <;> simp_all

theorem fraction?_passing : IsPassing fraction? where
  shorter {cs rest} h := by
    unfold fraction? at h
    split at h
    · obtain ⟨-, h⟩ := Option.ite_none_right_eq_some.1 h
      cases h
      exact Nat.le_succ_of_le (Nat.le_succ_of_le (List.dropWhile_sublist _).length_le)
    · cases h
    · cases h
      exact Nat.le_refl _
  followed {cs rest} h more := by
    match cs with
    | [] => cases h; rfl
    | c :: cs =>
      by_cases hc : c = '.'
      · subst hc
        match cs with
        | [] => cases h
        | d :: cs =>
          obtain ⟨hd, h⟩ := Option.ite_none_right_eq_some.1 h
          cases h
          exact (if_pos hd).trans (congrArg some (dropWhile_followed (by decide) cs more))
      · rw [fraction?_cons_of_ne hc] at h
        cases h
        exact fraction?_cons_of_ne hc _

theorem time?_passing : IsPassing time? :=
  (pair?_linewise 0 23).pass fun _ => (mark?_passing ':').pass <|
    (pair?_linewise 0 59).pass fun _ => (mark?_passing ':').pass <|
      (pair?_linewise 0 60).pass fun _ => fraction?_passing

/-- What is behind the distance of a zone, behind its sign. -/
def distance? (cs : List Char) : Option (List Char) := do
  let (_, cs) ← pair? 0 23 cs
  let cs ← mark? ':' cs
  let (_, cs) ← pair? 0 59 cs
  some cs

theorem distance?_passing : IsPassing distance? :=
  (pair?_linewise 0 23).pass fun _ => (mark?_passing ':').pass <|
    (pair?_linewise 0 59).pass fun _ => isPassing_some

theorem zone?_cons (c : Char) (cs : List Char) : zone? (c :: cs) =
    if c = 'Z' ∨ c = 'z' then some cs else if c = '+' ∨ c = '-' then distance? cs else some (c :: cs) := by
  by_cases hZ : c = 'Z'
  · subst hZ; rfl
  · by_cases hz : c = 'z'
    · subst hz; rfl
    · rw [if_neg (not_or.2 ⟨hZ, hz⟩)]
      unfold zone?
      split <;> simp_all [distance?]

theorem zone?_passing : IsPassing zone? where
  shorter {cs rest} h := by
    match cs with
    | [] => cases h; exact Nat.le_refl _
    | c :: cs =>
      rw [zone?_cons] at h
      split at h
      · cases h; exact Nat.le_succ _
      · split at h
        · exact Nat.le_succ_of_le (distance?_passing.shorter h)
        · cases h; exact Nat.le_refl _
  followed {cs rest} h more := by
    match cs with
    | [] => cases h; rfl
    | c :: cs =>
      rw [zone?_cons] at h
      rw [List.cons_append, zone?_cons]
      split at h
      · cases h
        exact if_pos ‹_›
      · rw [if_neg ‹_›]
        split at h
        · exact (if_pos ‹_›).trans (distance?_passing.followed h more)
        · cases h
          exact if_neg ‹_›

theorem isTime_followed (cs more : List Char) : isTime (cs ++ '\n' :: more) = isTime cs := by
  unfold isTime
  rw [digits?_followed]
  cases digits? 2 cs with
  | none => rfl
  | some x =>
    obtain ⟨n, rest⟩ := x
    cases rest with
    | nil => rfl
    | cons c rest =>
      simp only [Option.map_some, List.cons_append]
      split <;> simp_all

theorem isDate_followed (cs more : List Char) : isDate (cs ++ '\n' :: more) = isDate cs := by
  unfold isDate
  rw [digits?_followed]
  cases digits? 4 cs with
  | none => rfl
  | some x =>
    obtain ⟨n, rest⟩ := x
    cases rest with
    | nil => rfl
    | cons c rest =>
      simp only [Option.map_some, List.cons_append]
      split <;> simp_all

theorem hasTime_followed (cs more : List Char) : hasTime (cs ++ '\n' :: more) = hasTime cs := by
  cases cs with
  | nil => rfl
  | cons c cs => exact congrArg ((c = 'T' || c = 't' || c = ' ') && ·) (isTime_followed cs more)

theorem read?_passing : IsPassing read? where
  shorter {cs rest} h := by
    unfold read? at h
    split at h
    · split at h
      · cases h
      · rename_i behind hdate
        have hdate := date?_passing.shorter hdate
        split at h
        · obtain ⟨zone, htime, hzone⟩ := Option.bind_eq_some_iff.1 h
          have htime := time?_passing.shorter htime
          have hzone := zone?_passing.shorter hzone
          rw [List.length_drop] at htime
          omega
        · cases h
          exact hdate
    · exact time?_passing.shorter h
  followed {cs rest} h more := by
    unfold read? at h ⊢
    rw [isDate_followed]
    split at h
    · rw [if_pos ‹_›]
      split at h
      · cases h
      · rename_i behind hdate
        rw [date?_passing.followed hdate]
        simp only [hasTime_followed]
        split at h
        · rename_i htime
          rw [if_pos htime]
          match behind with
          | [] => cases htime
          | c :: behind => exact (time?_passing.pass zone?_passing).followed h more
        · cases h
          exact if_neg ‹_›
    · rw [if_neg ‹_›]
      exact time?_passing.followed h more

end Moment

/-! ## Numbers -/

theorem moreDigits_cons {c : Char} (h : c ≠ '_') (base : Nat) (acc : List Nat) (cs : List Char) :
    moreDigits base acc (c :: cs) =
      match digitValue? base c with
      | some d => moreDigits base (d :: acc) cs
      | none => some (acc.reverse, c :: cs) := by
  refine (moreDigits.eq_def base acc (c :: cs)).trans ?_
  split
  · cases ‹_ :: _ = []›
  · exact absurd (List.cons.inj ‹_›).1 h
  · exact absurd (List.cons.inj ‹_›).1 h
  · obtain ⟨rfl, rfl⟩ := List.cons.inj ‹_›
    rfl

theorem ne_line {c : Char} (last : c = '_' → cs = [] → False) (inner : ∀ d ds, c = '_' → cs = d :: ds → False) :
    c ≠ '_' := by
  rintro rfl
  cases cs with
  | nil => exact last rfl rfl
  | cons d ds => exact inner d ds rfl rfl

theorem moreDigits_linewise (base : Nat) (acc : List Nat) : IsLinewise (moreDigits base acc) where
  shorter {cs rest v} h := by
    fun_induction moreDigits base acc cs with
    | case1 => cases h; exact Nat.le_refl _
    | case2 => cases h
    | case3 acc c cs d hd ih => exact Nat.le_succ_of_le (Nat.le_succ_of_le (ih h))
    | case4 => cases h
    | case5 acc c cs _ _ d hd ih => exact Nat.le_succ_of_le (ih h)
    | case6 => cases h; exact Nat.le_refl _
  followed {cs rest v} h more := by
    fun_induction moreDigits base acc cs with
    | case1 acc =>
      cases h
      rw [List.nil_append, moreDigits_cons (by decide), digitValue?_break]
    | case2 => cases h
    | case3 acc c cs d hd ih =>
      rw [List.cons_append, List.cons_append, moreDigits, hd]
      exact ih h
    | case4 => cases h
    | case5 acc c cs last inner d hd ih =>
      rw [List.cons_append, moreDigits_cons (ne_line last inner), hd]
      exact ih h
    | case6 acc c cs last inner hd =>
      cases h
      rw [List.cons_append, moreDigits_cons (ne_line last inner), hd]

theorem digitRun?_linewise (base : Nat) : IsLinewise (digitRun? base) where
  shorter {cs rest v} h := by
    unfold digitRun? at h
    split at h
    · cases h
    · split at h
      · exact Nat.le_succ_of_le ((moreDigits_linewise base _).shorter h)
      · cases h
  followed {cs rest v} h more := by
    unfold digitRun? at h
    split at h
    · cases h
    · split at h
      · rename_i c cs d hd
        simp only [digitRun?, List.cons_append, hd]
        exact (moreDigits_linewise base _).followed h more
      · cases h

/-- A run of digits is not empty. -/
theorem exists_of_digitRun? {base : Nat} {ds : List Nat} (h : digitRun? base cs = some (ds, rest)) :
    ∃ c behind, cs = c :: behind ∧ (digitValue? base c).isSome := by
  unfold digitRun? at h
  split at h
  · cases h
  · rename_i c behind
    split at h
    · rename_i d hd
      exact ⟨c, behind, rfl, by rw [hd]; rfl⟩
    · cases h

theorem wholeDigits?_cons_of_ne {c : Char} (h : c ≠ '0') (cs : List Char) :
    wholeDigits? (c :: cs) = digitRun? 10 (c :: cs) := by
  unfold wholeDigits?
  split
  · exact absurd (List.cons.inj ‹_›).1 h
  · rfl

theorem wholeDigits?_linewise : IsLinewise wholeDigits? where
  shorter {cs rest v} h := by
    unfold wholeDigits? at h
    split at h
    · cases h; exact Nat.le_succ _
    · exact (digitRun?_linewise 10).shorter h
  followed {cs rest v} h more := by
    match cs with
    | [] => cases h
    | c :: cs =>
      by_cases zero : c = '0'
      · subst zero
        cases h
        rfl
      · rw [wholeDigits?_cons_of_ne zero] at h
        rw [List.cons_append, wholeDigits?_cons_of_ne zero]
        exact (digitRun?_linewise 10).followed h more

theorem readPlaces_cons_of_ne {c : Char} (h : c ≠ '.') (cs : List Char) :
    readPlaces (c :: cs) = some ([], c :: cs) := by
  unfold readPlaces
  split
  · exact absurd (List.cons.inj ‹_›).1 h
  · rfl

theorem readPlaces_linewise : IsLinewise readPlaces where
  shorter {cs rest v} h := by
    unfold readPlaces at h
    split at h
    · exact Nat.le_succ_of_le ((digitRun?_linewise 10).shorter h)
    · cases h; exact Nat.le_refl _
  followed {cs rest v} h more := by
    match cs with
    | [] => cases h; rfl
    | c :: cs =>
      by_cases point : c = '.'
      · subst point
        exact (digitRun?_linewise 10).followed h more
      · rw [readPlaces_cons_of_ne point] at h
        cases h
        exact readPlaces_cons_of_ne point _

theorem readSign_followed (h : cs ≠ []) (more : List Char) :
    readSign (cs ++ '\n' :: more) = ((readSign cs).1, (readSign cs).2 ++ '\n' :: more) := by
  match cs, h with
  | c :: cs, _ =>
    rw [List.cons_append]
    unfold readSign
    split <;> simp_all

theorem length_readSign (cs : List Char) : (readSign cs).2.length ≤ cs.length := by
  unfold readSign
  split
  · exact Nat.le_succ _
  · exact Nat.le_succ _
  · exact Nat.le_refl _

theorem readPower_cons (c : Char) (cs : List Char) : readPower (c :: cs) =
    if c = 'e' ∨ c = 'E' then
      (digitRun? 10 (readSign cs).2).map fun x =>
        (if (readSign cs).1 = some true then -(numberOf 10 x.1 : Int) else numberOf 10 x.1, x.2)
    else some (0, c :: cs) := rfl

theorem readPower_linewise : IsLinewise readPower where
  shorter {cs rest v} h := by
    match cs with
    | [] => cases h; exact Nat.le_refl _
    | c :: cs =>
      rw [readPower_cons] at h
      split at h
      · obtain ⟨x, hx, he⟩ := Option.map_eq_some_iff.1 h
        cases he
        exact Nat.le_succ_of_le (Nat.le_trans ((digitRun?_linewise 10).shorter hx) (length_readSign cs))
      · cases h; exact Nat.le_refl _
  followed {cs rest v} h more := by
    match cs with
    | [] => cases h; rfl
    | c :: cs =>
      rw [readPower_cons] at h
      rw [List.cons_append, readPower_cons]
      split at h
      · rename_i hc
        obtain ⟨x, hx, he⟩ := Option.map_eq_some_iff.1 h
        cases he
        have hcs : cs ≠ [] := by
          rintro rfl
          cases hx
        rw [if_pos hc, readSign_followed hcs, (digitRun?_linewise 10).followed hx]
        rfl
      · rename_i hc
        cases h
        exact if_neg hc

theorem readDecimal_linewise (negative : Bool) : IsLinewise (readDecimal negative) where
  shorter {cs rest v} h := by
    obtain ⟨⟨whole, behind⟩, hwhole, h⟩ := Option.bind_eq_some_iff.1 h
    obtain ⟨⟨places, rest₁⟩, hplaces, h⟩ := Option.bind_eq_some_iff.1 h
    obtain ⟨⟨power, rest₂⟩, hpower, h⟩ := Option.bind_eq_some_iff.1 h
    have hwhole := wholeDigits?_linewise.shorter hwhole
    have hplaces := readPlaces_linewise.shorter hplaces
    have hpower := readPower_linewise.shorter hpower
    simp only at h
    split at h
    all_goals
      obtain ⟨w, -, h⟩ := Option.bind_eq_some_iff.1 h
      cases h
      omega
  followed {cs rest v} h more := by
    obtain ⟨⟨whole, behind⟩, hwhole, h⟩ := Option.bind_eq_some_iff.1 h
    obtain ⟨⟨places, rest₁⟩, hplaces, h⟩ := Option.bind_eq_some_iff.1 h
    obtain ⟨⟨power, rest₂⟩, hpower, h⟩ := Option.bind_eq_some_iff.1 h
    have same : (rest₂ ++ '\n' :: more).length = (behind ++ '\n' :: more).length ↔ rest₂.length = behind.length := by
      simp
    refine Option.bind_eq_some_iff.2 ⟨_, wholeDigits?_linewise.followed hwhole more,
      Option.bind_eq_some_iff.2 ⟨_, readPlaces_linewise.followed hplaces more,
        Option.bind_eq_some_iff.2 ⟨_, readPower_linewise.followed hpower more, ?_⟩⟩⟩
    simp only at h
    simp only [same]
    split at h
    · rw [if_pos ‹_›]
      obtain ⟨w, hw, h⟩ := Option.bind_eq_some_iff.1 h
      cases h
      exact Option.bind_eq_some_iff.2 ⟨_, hw, rfl⟩
    · rw [if_neg ‹_›]
      obtain ⟨w, hw, h⟩ := Option.bind_eq_some_iff.1 h
      cases h
      exact Option.bind_eq_some_iff.2 ⟨_, hw, rfl⟩

theorem readBased_linewise (base : Nat) : IsLinewise (readBased base) :=
  (digitRun?_linewise base).weigh (fun digits => integer? (numberOf base digits)) fun _ v => v

/-- A text that begins with a digit. -/
def BeginsWithDigit (cs : List Char) : Prop := ∃ c behind, cs = c :: behind ∧ (digitValue? 10 c).isSome

/-- A number to base ten begins with a digit. -/
theorem beginsWithDigit_of_readDecimal {negative : Bool} {v : Value}
    (h : readDecimal negative cs = some (v, rest)) : BeginsWithDigit cs := by
  obtain ⟨⟨whole, behind⟩, hwhole, -⟩ := Option.bind_eq_some_iff.1 h
  unfold wholeDigits? at hwhole
  split at hwhole
  · exact ⟨_, _, rfl, by decide⟩
  · exact exists_of_digitRun? hwhole

/-- A number behind its sign. -/
def readSigned (negative : Bool) : Reader Value
  | 'i' :: 'n' :: 'f' :: rest => some (.double (.infinity negative), rest)
  | 'n' :: 'a' :: 'n' :: rest => some (.double (if negative then Number.Binary64.nan.neg else .nan), rest)
  | cs => readDecimal negative cs

/-- A number without a sign. -/
def readUnsigned : Reader Value
  | '0' :: 'x' :: rest => readBased 16 rest
  | '0' :: 'o' :: rest => readBased 8 rest
  | '0' :: 'b' :: rest => readBased 2 rest
  | cs => readDecimal false cs

theorem readNumber_eq (cs : List Char) : readNumber cs =
    if Moment.isDate cs || Moment.isTime cs then (Moment.read? cs).map fun rest => (.moment, rest)
    else match (readSign cs).1 with
      | some negative => readSigned negative (readSign cs).2
      | none => readUnsigned (readSign cs).2 := by
  unfold readNumber readSigned readUnsigned
  obtain ⟨_ | negative, rest⟩ := readSign cs
  · split
    · rfl
    · simp only
      split <;> simp_all
  · split
    · rfl
    · simp only
      split <;> simp_all

theorem readSigned_cons {c : Char} (h : (digitValue? 10 c).isSome) (negative : Bool) (cs : List Char) :
    readSigned negative (c :: cs) = readDecimal negative (c :: cs) := by
  unfold readSigned
  split
  · obtain ⟨rfl, -⟩ := List.cons.inj ‹_›
    exact absurd h (by decide)
  · obtain ⟨rfl, -⟩ := List.cons.inj ‹_›
    exact absurd h (by decide)
  · rfl

theorem readSigned_linewise (negative : Bool) : IsLinewise (readSigned negative) where
  shorter {cs rest v} h := by
    unfold readSigned at h
    split at h
    · cases h; simp only [List.length_cons]; omega
    · cases h; simp only [List.length_cons]; omega
    · exact (readDecimal_linewise negative).shorter h
  followed {cs rest v} h more := by
    unfold readSigned at h
    split at h
    · cases h; rfl
    · cases h; rfl
    · obtain ⟨c, cs, rfl, digit⟩ := beginsWithDigit_of_readDecimal h
      rw [List.cons_append, readSigned_cons digit]
      exact (readDecimal_linewise negative).followed h more

theorem readUnsigned_linewise : IsLinewise readUnsigned where
  shorter {cs rest v} h := by
    unfold readUnsigned at h
    split at h
    iterate 3 exact Nat.le_succ_of_le (Nat.le_succ_of_le ((readBased_linewise _).shorter h))
    exact (readDecimal_linewise false).shorter h
  followed {cs rest v} h more := by
    unfold readUnsigned at h
    split at h
    iterate 3 exact (readBased_linewise _).followed h more
    rw [← (readDecimal_linewise false).followed h more]
    -- A line break is none of the marks of a base, so the text that follows does not make one.
    match cs with
    | [] => rfl
    | [c] =>
      unfold readUnsigned
      split <;> simp_all
    | c :: d :: cs =>
      unfold readUnsigned
      split <;> simp_all

theorem Moment.beginsWithDigit_of_digits? {width n : Nat} (h : digits? (width + 1) cs = some (n, rest)) :
    BeginsWithDigit cs := by
  unfold digits? at h
  match cs with
  | [] => cases h
  | c :: cs =>
    refine ⟨c, cs, rfl, ?_⟩
    rw [List.take_succ_cons, List.mapM_cons] at h
    cases hc : digitValue? 10 c with
    | none => rw [hc] at h; cases h
    | some => rfl

theorem Moment.beginsWithDigit_of_isDate (h : isDate cs = true) : BeginsWithDigit cs := by
  unfold isDate at h
  split at h
  · exact beginsWithDigit_of_digits? ‹_›
  · cases h

theorem Moment.beginsWithDigit_of_isTime (h : isTime cs = true) : BeginsWithDigit cs := by
  unfold isTime at h
  split at h
  · exact beginsWithDigit_of_digits? ‹_›
  · cases h

theorem beginsWithDigit_of_readUnsigned {v : Value} (h : readUnsigned cs = some (v, rest)) :
    BeginsWithDigit cs := by
  unfold readUnsigned at h
  split at h
  iterate 3 exact ⟨_, _, rfl, by decide⟩
  exact beginsWithDigit_of_readDecimal h

/-- A number begins with a digit or a sign. -/
theorem exists_of_readNumber {v : Value} (h : readNumber cs = some (v, rest)) :
    ∃ c behind, cs = c :: behind ∧ (c = '+' ∨ c = '-' ∨ (digitValue? 10 c).isSome) := by
  have digit (found : BeginsWithDigit cs) :
      ∃ c behind, cs = c :: behind ∧ (c = '+' ∨ c = '-' ∨ (digitValue? 10 c).isSome) := by
    obtain ⟨c, behind, rfl, hc⟩ := found
    exact ⟨c, behind, rfl, .inr (.inr hc)⟩
  rw [readNumber_eq] at h
  split at h
  · rename_i moment
    obtain date | time := Bool.or_eq_true_iff.1 moment
    · exact digit (Moment.beginsWithDigit_of_isDate date)
    · exact digit (Moment.beginsWithDigit_of_isTime time)
  · match cs with
    | [] => cases h
    | c :: cs =>
      by_cases plus : c = '+'
      · exact ⟨c, cs, rfl, .inl plus⟩
      · by_cases minus : c = '-'
        · exact ⟨c, cs, rfl, .inr (.inl minus)⟩
        · have unsigned : readSign (c :: cs) = (none, c :: cs) := by
            unfold readSign
            split <;> simp_all
          rw [unsigned] at h
          exact digit (beginsWithDigit_of_readUnsigned h)

theorem readNumber_linewise : IsLinewise readNumber where
  shorter {cs rest v} h := by
    rw [readNumber_eq] at h
    split at h
    · obtain ⟨behind, hread, he⟩ := Option.map_eq_some_iff.1 h
      cases he
      exact Moment.read?_passing.shorter hread
    · split at h
      · exact Nat.le_trans ((readSigned_linewise _).shorter h) (length_readSign cs)
      · exact Nat.le_trans (readUnsigned_linewise.shorter h) (length_readSign cs)
  followed {cs rest v} h more := by
    rw [readNumber_eq] at h ⊢
    rw [Moment.isDate_followed, Moment.isTime_followed]
    split at h
    · rw [if_pos ‹_›]
      obtain ⟨behind, hread, he⟩ := Option.map_eq_some_iff.1 h
      cases he
      exact Option.map_eq_some_iff.2 ⟨_, Moment.read?_passing.followed hread more, rfl⟩
    · rw [if_neg ‹_›]
      have hcs : cs ≠ [] := by
        rintro rfl
        cases h
      rw [readSign_followed hcs]
      split at h
      · rename_i negative hsign
        rw [hsign]
        exact (readSigned_linewise negative).followed h more
      · rename_i hsign
        rw [hsign]
        exact readUnsigned_linewise.followed h more

end Telemetry.Toml
