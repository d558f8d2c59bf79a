/-
Remarks about a place in a text, by line and column. A remark that is given as plain text and ends like
one with a place is one with that place; lines are counted from 1, so in line 0 there is no place.
-/
import Telemetry.Number.Layout
import Telemetry.Number.Numeral

namespace Telemetry.Text

open Number (digitsValue natText)

/-- A remark with its place. -/
structure Placed where
  text : String
  line : Nat := 0
  column : Nat := 0
deriving DecidableEq, Repr

namespace Placed

/-- What stands between a remark and the line. -/
def lineMark : String := " at line "

/-- What stands between the line and the column. -/
def columnMark : String := " column "

/-- A remark as text, with its place if it has one. -/
def message (r : Placed) : String :=
  if r.line = 0 then r.text
  else r.text ++ lineMark ++ natText r.line ++ columnMark ++ natText r.column

/-- What stands before the last occurrence of a mark, and behind it. -/
def splitLast? (mark : List Char) : List Char → Option (List Char × List Char)
  | [] => none
  | c :: cs =>
    match splitLast? mark cs with
    | some (before, behind) => some (c :: before, behind)
    | none => if mark.isPrefixOf (c :: cs) then some ([], (c :: cs).drop mark.length) else none

/-- The number that digits make, if there are any and it has no more than 64 bits. -/
def number? (digits : List Char) : Option Nat :=
  let n := digitsValue (digits.map fun c => c.toNat - 48)
  if digits.isEmpty ∨ 0x10000000000000000 ≤ n then none else some n

/-- The line and the column that a text consists of. -/
def place? (cs : List Char) : Option (Nat × Nat) := do
  let behind := cs.dropWhile Char.isDigit
  let line ← number? (cs.takeWhile Char.isDigit)
  if columnMark.toList.isPrefixOf behind then
    let digits := behind.drop columnMark.length
    let column ← number? digits
    if digits.all Char.isDigit then some (line, column) else none
  else none

/-- The remark that a text is. -/
def ofText (s : String) : Placed :=
  match splitLast? lineMark.toList s.toList with
  | none => { text := s }
  | some (before, behind) =>
    match place? behind with
    | none => { text := s }
    | some (line, column) => { text := String.ofList before, line, column }

end Placed

end Telemetry.Text
