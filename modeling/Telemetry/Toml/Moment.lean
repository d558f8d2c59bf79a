/-
Dates and times of day: which texts are one. A date may have a time of day behind it, and such a time
the distance of its zone; a time of day may stand alone.
-/
import Telemetry.Toml.Text

namespace Telemetry.Toml.Moment

/-- The number in so many decimal digits. -/
def digits? (width : Nat) : Reader Nat := fun cs =>
  match (cs.take width).mapM (digitValue? 10) with
  | none => none
  | some ds => if ds.length = width then some (numberOf 10 ds, cs.drop width) else none

/-- A number in two digits within bounds. -/
def pair? (least most : Nat) : Reader Nat := fun cs =>
  match digits? 2 cs with
  | some (n, rest) => if least ≤ n ∧ n ≤ most then some (n, rest) else none
  | none => none

def isLeapYear (year : Nat) : Bool := year % 4 = 0 && (year % 100 ≠ 0 || year % 400 = 0)

def daysIn (year month : Nat) : Nat :=
  if month = 2 then (if isLeapYear year then 29 else 28)
  else if month = 4 ∨ month = 6 ∨ month = 9 ∨ month = 11 then 30
  else 31

/-- What is behind a mark. -/
def mark? (m : Char) : List Char → Option (List Char)
  | c :: rest => if c = m then some rest else none
  | [] => none

/-- What is behind a date. -/
def date? (cs : List Char) : Option (List Char) := do
  let (year, cs) ← digits? 4 cs
  let cs ← mark? '-' cs
  let (month, cs) ← pair? 1 12 cs
  let cs ← mark? '-' cs
  let (day, cs) ← pair? 1 31 cs
  if day ≤ daysIn year month then some cs else none

/-- What is behind the parts of a second, if there are any. -/
def fraction? : List Char → Option (List Char)
  | '.' :: c :: rest =>
    if c.isDigit then some (rest.dropWhile Char.isDigit) else none
  | ['.'] => none
  | cs => some cs

/-- What is behind a time of day. A minute may have 61 seconds. -/
def time? (cs : List Char) : Option (List Char) := do
  let (_, cs) ← pair? 0 23 cs
  let cs ← mark? ':' cs
  let (_, cs) ← pair? 0 59 cs
  let cs ← mark? ':' cs
  let (_, cs) ← pair? 0 60 cs
  fraction? cs

/-- What is behind the distance of a zone, if there is one. -/
def zone? : List Char → Option (List Char)
  | 'Z' :: rest => some rest
  | 'z' :: rest => some rest
  | c :: rest =>
    if c = '+' ∨ c = '-' then do
      let (_, cs) ← pair? 0 23 rest
      let cs ← mark? ':' cs
      let (_, cs) ← pair? 0 59 cs
      some cs
    else some (c :: rest)
  | [] => some []

/-- Whether two digits and a colon stand here. -/
def isTime (cs : List Char) : Bool :=
  match digits? 2 cs with
  | some (_, ':' :: _) => true
  | _ => false

/-- Whether four digits and a dash stand here. -/
def isDate (cs : List Char) : Bool :=
  match digits? 4 cs with
  | some (_, '-' :: _) => true
  | _ => false

/-- Whether a time of day stands behind a date: behind a `T`, or behind a blank. -/
def hasTime : List Char → Bool
  | c :: rest => (c = 'T' || c = 't' || c = ' ') && isTime rest
  | [] => false

/-- What is behind a moment that begins here. -/
def read? (cs : List Char) : Option (List Char) :=
  if isDate cs then
    match date? cs with
    | none => none
    | some rest => if hasTime rest then (time? (rest.drop 1)).bind zone? else some rest
  else time? cs

end Telemetry.Toml.Moment
