/-
The characters of a settings document, its blanks, comments and line ends, and texts between quotes.
-/
import Telemetry.Clock

namespace Telemetry.Toml

/-- What reads something at the beginning of a text and gives what is behind it. -/
abbrev Reader (α : Type) := List Char → Option (α × List Char)

def isBlank (c : Char) : Bool := c = ' ' || c = '\t'

/-- What may stand in a comment or between quotes: no control character but the tabulator. -/
def isPrintable (c : Char) : Bool := c = '\t' || (32 ≤ c.toNat && c.toNat ≠ 127)

def skipBlanks (cs : List Char) : List Char := cs.dropWhile isBlank

/-- What is behind a line break. -/
def break? : List Char → Option (List Char)
  | '\n' :: rest => some rest
  | '\r' :: '\n' :: rest => some rest
  | _ => none

/-- What is behind a comment, if there is one. -/
def skipComment : List Char → List Char
  | '#' :: rest => rest.dropWhile isPrintable
  | cs => cs

/-- What is behind the end of a line: blanks, a comment, and a line break or the end of the text. -/
def lineEnd? (cs : List Char) : Option (List Char) :=
  match skipComment (skipBlanks cs) with
  | [] => some []
  | cs => break? cs

/-- What is behind blanks and line breaks. -/
def skipBreaks : List Char → List Char
  | ' ' :: rest => skipBreaks rest
  | '\t' :: rest => skipBreaks rest
  | '\n' :: rest => skipBreaks rest
  | '\r' :: '\n' :: rest => skipBreaks rest
  | cs => cs

theorem length_skipBreaks (cs : List Char) : (skipBreaks cs).length ≤ cs.length := by
  fun_induction skipBreaks cs <;> try (simp only [List.length_cons]; omega)
  exact Nat.le_refl _

/-- The value of a digit to some base. -/
def digitValue? (base : Nat) (c : Char) : Option Nat :=
  let n := c.toNat
  let value :=
    if 48 ≤ n ∧ n ≤ 57 then n - 48
    else if 97 ≤ n ∧ n ≤ 102 then n - 87
    else if 65 ≤ n ∧ n ≤ 70 then n - 55
    else base
  if value < base then some value else none

/-- The number that digits make. -/
def numberOf (base : Nat) (digits : List Nat) : Nat := digits.foldl (fun n d => n * base + d) 0

/-- The character with that number, if there is one. -/
def scalar? (n : Nat) : Option Char :=
  if n < 0xd800 ∨ (0xdfff < n ∧ n < 0x110000) then some (Char.ofNat n) else none

/-- A character by its number in `width` digits. -/
def numbered? (width : Nat) : Reader Char := fun cs =>
  match (cs.take width).mapM (digitValue? 16) with
  | none => none
  | some digits =>
    if digits.length = width then
      (scalar? (numberOf 16 digits)).map fun c => (c, cs.drop width)
    else none

/-- A character behind a backslash. -/
def escaped? : Reader Char
  | 'b' :: rest => some ('\x08', rest)
  | 't' :: rest => some ('\t', rest)
  | 'n' :: rest => some ('\n', rest)
  | 'f' :: rest => some ('\x0c', rest)
  | 'r' :: rest => some ('\r', rest)
  | '"' :: rest => some ('"', rest)
  | '\\' :: rest => some ('\\', rest)
  | 'u' :: rest => numbered? 4 rest
  | 'U' :: rest => numbered? 8 rest
  | _ => none

theorem length_of_numbered? {width : Nat} {cs rest : List Char} {c : Char}
    (h : numbered? width cs = some (c, rest)) : rest.length ≤ cs.length := by
  unfold numbered? at h
  split at h
  · simp at h
  · split at h
    · obtain ⟨_, _, he⟩ := Option.map_eq_some_iff.1 h
      rw [← (Prod.mk.inj he).2]
      simp
    · simp at h

theorem length_of_escaped? {cs rest : List Char} {c : Char} (h : escaped? cs = some (c, rest)) :
    rest.length < cs.length := by
  unfold escaped? at h
  split at h
  all_goals first
    | (simp only [List.length_cons]; exact Nat.lt_succ_of_le (length_of_numbered? h))
    | (simp only [Option.some.injEq, Prod.mk.injEq] at h; simp [← h.2])
    | simp at h

/-- Which quotes are around a text. Between double ones a backslash means something. -/
inductive Quotes where
  | single
  | double
deriving DecidableEq, Repr

def Quotes.mark : Quotes → Char
  | single => '\x27'
  | double => '"'

/-- The rest of a text on one line, behind what has been read of it in reverse. -/
def readLine (q : Quotes) (acc : List Char) (cs : List Char) : Option (String × List Char) :=
  match cs with
  | [] => none
  | c :: rest =>
    if c = q.mark then some (String.ofList acc.reverse, rest)
    else if c = '\\' ∧ q = .double then
      match _h : escaped? rest with
      | some (e, rest) => readLine q (e :: acc) rest
      | none => none
    else if isPrintable c then readLine q (c :: acc) rest
    else none
termination_by cs.length
decreasing_by
  · have := length_of_escaped? _h
    simp only [List.length_cons]; omega
  · simp

/-- The end of a text over several lines: three quotes, with one or two that belong to the text in
front of them. Gives their number. -/
def closing? (q : Quotes) : Reader Nat := fun cs =>
  let run := ((cs.take 5).takeWhile (· = q.mark)).length
  if 3 ≤ run then some (run - 3, cs.drop run) else none

/-- What is behind a backslash at the end of a line: the line break and all blanks up to the next
text. -/
def continued? (cs : List Char) : Option (List Char) := (break? (skipBlanks cs)).map skipBreaks

theorem length_of_break? {cs rest : List Char} (h : break? cs = some rest) :
    rest.length < cs.length := by
  unfold break? at h
  split at h
  · cases h; simp
  · cases h; simp only [List.length_cons]; omega
  · cases h

theorem length_of_continued? {cs rest : List Char} (h : continued? cs = some rest) :
    rest.length < cs.length := by
  obtain ⟨r, hr, rfl⟩ := Option.map_eq_some_iff.1 h
  have h1 := length_of_break? hr
  have h2 := length_skipBreaks r
  have h3 : (skipBlanks cs).length ≤ cs.length := (List.dropWhile_sublist _).length_le
  omega

/-- The rest of a text over several lines, behind what has been read of it in reverse. -/
def readLines (q : Quotes) (acc : List Char) (cs : List Char) : Option (String × List Char) :=
  match closing? q cs with
  | some (extra, rest) => some (String.ofList (acc.reverse ++ List.replicate extra q.mark), rest)
  | none =>
    match _hb : break? cs with
    | some rest => readLines q ('\n' :: acc) rest
    | none =>
      match cs with
      | [] => none
      | c :: rest =>
        if c = '\\' ∧ q = .double then
          match _hc : continued? rest with
          | some rest => readLines q acc rest
          | none =>
            match _he : escaped? rest with
            | some (e, rest) => readLines q (e :: acc) rest
            | none => none
        else if isPrintable c then readLines q (c :: acc) rest
        else none
termination_by cs.length
decreasing_by
  · exact length_of_break? _hb
  · have := length_of_continued? _hc
    simp only [List.length_cons]; omega
  · have := length_of_escaped? _he
    simp only [List.length_cons]; omega
  · simp

/-- A text between quotes. A line break right behind three quotes does not belong to it. -/
def readText (q : Quotes) : Reader String := fun cs =>
  let m := q.mark
  match cs with
  | a :: b :: c :: rest =>
    if a = m ∧ b = m ∧ c = m then readLines q [] ((break? rest).getD rest)
    else if a = m then readLine q [] (b :: c :: rest)
    else none
  | a :: rest => if a = m then readLine q [] rest else none
  | [] => none

end Telemetry.Toml
