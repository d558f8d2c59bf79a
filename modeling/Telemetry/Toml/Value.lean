/-
Values of a settings document, and tables that are put together entry by entry. A table keeps its
entries in the order in which they were made, and remembers how it came to be: that decides what may
still be added to it.
-/
import Telemetry.Number.Layout
import Telemetry.Text.Quoted

namespace Telemetry.Toml

open Number (Binary64)

/-- How a table came to be: written as a value, under a header of its own, on the way to another
header, or by a key with dots. -/
inductive Origin where
  | inline
  | header
  | implied
  | dotted
deriving DecidableEq, Repr

/-- A value. Which moment a moment is does not matter here. `tables` are those under a header that can
be repeated. -/
inductive Value where
  | text (s : String)
  | integer (n : Int64)
  | double (x : Binary64)
  | bool (b : Bool)
  | moment
  | list (items : List Value)
  | table (origin : Origin) (entries : List (String × Value))
  | tables (elements : List (List (String × Value)))

/-- The entries of a table. -/
abbrev Entries := List (String × Value)

namespace Value

/-- A value in a message. -/
def describe : Value → String
  | text s => "string " ++ Text.quoted s
  | integer n => "integer `" ++ Number.intText n.toInt ++ "`"
  | double x => "floating point `" ++ Number.plainText x ++ "`"
  | bool b => "boolean `" ++ (if b then "true" else "false") ++ "`"
  | moment => "map"
  | list _ => "sequence"
  | table _ _ => "map"
  | tables _ => "sequence"

end Value

namespace Entries

/-- The value under a key. -/
def get? (es : Entries) (key : String) : Option Value := List.lookup key es

/-- Replaces the value under a key where it stands, or makes a new entry at the end. -/
def put (key : String) (v : Value) : Entries → Entries
  | [] => [(key, v)]
  | (k, w) :: es => if k = key then (k, v) :: es else (k, w) :: put key v es

/-- Takes an entry out. -/
def erase (key : String) (es : Entries) : Entries := es.filter (·.1 != key)

/-- Whether keys with dots may go on into a table. -/
def isOpenToDots : Origin → Bool
  | .implied => true
  | .dotted => true
  | _ => false

/-- Does something in the table at a path. Tables that are missing are made on the way, and of tables
under a repeated header the last one is meant. Keys with dots do not go into a table that is under a
header of its own, and nothing goes into a value. -/
def visit {β : Type} (dots : Bool) (f : Origin → Entries → Option (Entries × β)) :
    List String → Origin → Entries → Option (Entries × β)
  | [], origin, es => f origin es
  | key :: path, _, es =>
    match es.get? key with
    | none => do
      let origin := if dots then Origin.dotted else .implied
      let (inner, b) ← visit dots f path origin []
      return (es.put key (.table origin inner), b)
    | some (.table origin inner) =>
      if origin = .inline || (dots && !isOpenToDots origin) then none
      else do
        let (inner, b) ← visit dots f path origin inner
        return (es.put key (.table origin inner), b)
    | some (.tables elements) => do
      let last ← elements.getLast?
      let (last, b) ← visit dots f path .header last
      return (es.put key (.tables (elements.dropLast ++ [last])), b)
    | some _ => none

/-- Makes an entry. A key with dots ends in a table that was made by such a key, any other in the table
itself; there may be no entry with the key yet. -/
def insert (path : List String) (key : String) (v : Value) (es : Entries) : Option Entries :=
  (visit true (fun origin inner =>
    if (origin == .dotted) == path.isEmpty || (inner.get? key).isSome then none
    else some (inner ++ [(key, v)], ())) path .header es).map (·.1)

end Entries

end Telemetry.Toml
