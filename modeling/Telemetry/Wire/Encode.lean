/-
Records and batches as text: one object for each record with the members `id`, `type` and the value
field of its kind, in this order and without spaces. A gauge that is no number is written `null`.
-/
import Telemetry.Record
import Telemetry.Json.Literal
import Telemetry.Number.Layout

namespace Telemetry

namespace Value

/-- The number of a value, as text. -/
def wireChars : Value → List Char
  | .counter d => (Number.intText d.toInt).toList
  | .gauge x => if x.isFinite then Number.wireChars x else "null".toList

/-- The member that holds the value. -/
def wireKey : Value → String
  | .counter _ => "delta"
  | .gauge _ => "value"

end Value

namespace Record

/-- A record's object. -/
def wireChars (r : Record) : List Char :=
  "\x7b\"id\":".toList ++ Json.Literal.write r.name.toList ++ ",\"type\":\"".toList ++
    r.kind.word.toList ++ "\",\"".toList ++ r.value.wireKey.toList ++ "\":".toList ++
    r.value.wireChars ++ ['\x7d']

def wireText (r : Record) : String := String.ofList r.wireChars

end Record

namespace Wire

/-- The items of a list, with commas between them. -/
def commaSeparated : List (List Char) → List Char
  | [] => []
  | [x] => x
  | x :: xs => x ++ ',' :: commaSeparated xs

/-- The text of a batch. -/
def batchChars (b : Batch) : List Char :=
  '[' :: commaSeparated (b.map Record.wireChars) ++ [']']

def batchText (b : Batch) : String := String.ofList (batchChars b)

/-- The octets of a batch, as they are signed, compressed and sent. -/
def encodeBatch (b : Batch) : List UInt8 := Text.Utf8.encode (batchChars b)

end Wire

end Telemetry
