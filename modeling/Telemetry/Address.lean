/-
The address of the collector, and where batches are posted there.
-/
import Telemetry.Text.Blank

namespace Telemetry

/-- The address of a collector, as it was written. -/
structure Address where
  text : String
deriving DecidableEq, Repr

namespace Address

/-- Whether nothing but blanks was written. -/
def isBlank (a : Address) : Bool := a.text.toList.all Text.isBlank

/-- What stands between the scheme of an address and the rest. -/
def schemeMark : List Char := "://".toList

/-- Whether a text occurs within another. -/
def occurs (part : List Char) : List Char → Bool
  | [] => part.isEmpty
  | c :: cs => part.isPrefixOf (c :: cs) || occurs part cs

/-- The address without blanks around it and without slashes at its end. -/
def bare (a : Address) : List Char :=
  Text.dropEndWhile (· == '/') (Text.trim a.text.toList)

/-- The place where batches are posted. An address without a scheme is one of plain transfer. -/
def updates (a : Address) : List Char :=
  (if occurs schemeMark a.bare then a.bare else "http://".toList ++ a.bare) ++ "/updates/".toList

/-- The place where batches are posted, as text. -/
def updatesText (a : Address) : String := String.ofList a.updates

end Address

end Telemetry
