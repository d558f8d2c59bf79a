/-
Why a document is not a record or a batch: it is malformed, or it is well formed so far and says
something that no record says. The wording of the second kind is fixed here.
-/
import Telemetry.Record
import Telemetry.Number.Layout
import Telemetry.Number.Numeral
import Telemetry.Text.Quoted

namespace Telemetry.Wire

open Number (Binary64 Reading natText intText wireText)

/-- The members of a record that mean something. -/
inductive Field where
  | id
  | type
  | delta
  | value
deriving DecidableEq, Repr

namespace Field

def word : Field → String
  | id => "id"
  | type => "type"
  | delta => "delta"
  | value => "value"

def all : List Field := [id, type, delta, value]

/-- The field that a key names. -/
def ofKey? (key : String) : Option Field := all.find? (·.word == key)

end Field

/-- What should have stood in a place. -/
inductive Expected where
  | string
  | integer
  | number
  | nothing
  | record
  | batch
deriving DecidableEq, Repr

def Expected.word : Expected → String
  | string => "a string"
  | integer => "i64"
  | number => "f64"
  | nothing => "unit"
  | record => "struct WireMetric"
  | batch => "a sequence"

/-- What stands there instead. -/
inductive Found where
  | number (r : Reading)
  | bool (b : Bool)
  | text (s : String)
  | null
  | list
  | map
deriving DecidableEq, Repr

def Found.describe : Found → String
  | number (.natural n) => "integer `" ++ natText n.toNat ++ "`"
  | number (.negative n) => "integer `" ++ intText n.toInt ++ "`"
  | number (.double x) => "floating point `" ++ wireText x ++ "`"
  | bool b => "boolean `" ++ (if b then "true" else "false") ++ "`"
  | text s => "string " ++ Text.quoted s
  | null => "null"
  | list => "sequence"
  | map => "map"

/-- What is wrong with a well-formed document. -/
inductive Complaint where
  | missing (field : Field)
  | duplicate (field : Field)
  | unknownKind (word : String)
  | wrongType (found : Found) (expected : Expected)
  | tooLarge (n : UInt64)
  | tooShort (length : Nat)
  | valueField (id : String) (kind : Kind)
deriving DecidableEq, Repr

def Complaint.message : Complaint → String
  | missing f => "missing field `" ++ f.word ++ "`"
  | duplicate f => "duplicate field `" ++ f.word ++ "`"
  | unknownKind w => "unknown variant `" ++ w ++ "`, expected `counter` or `gauge`"
  | wrongType found expected =>
    "invalid type: " ++ found.describe ++ ", expected " ++ expected.word
  | tooLarge n => "invalid value: integer `" ++ natText n.toNat ++ "`, expected i64"
  | tooShort n =>
    "invalid length " ++ natText n ++ ", expected struct WireMetric with 4 elements"
  | valueField id kind =>
    "metric '" ++ id ++ "' of type " ++ kind.word ++ " must carry exactly its own value field"

/-- Why a document was refused. -/
inductive Fault where
  | malformed
  | complaint (c : Complaint)
deriving DecidableEq, Repr

end Telemetry.Wire
