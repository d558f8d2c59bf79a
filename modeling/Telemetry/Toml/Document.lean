/-
Documents: lines with an entry, a header or nothing. A header begins a table of its own; a repeated
header begins another table of a row each time.
-/
import Telemetry.Toml.Reader

namespace Telemetry.Toml

/-- A document as far as it was read: the tables that are finished, and the one that is not, with the
path of its header. -/
structure Draft where
  root : Entries := []
  path : Option (List String × String) := none
  repeated : Bool := false
  current : Entries := []

namespace Draft

/-- Puts the unfinished table into its place. -/
def finish (d : Draft) : Option Entries :=
  match d.path with
  | none => some d.current
  | some (path, key) =>
    (Entries.visit false (fun _ es =>
      if d.repeated then
        match es.get? key with
        | none => some (es ++ [(key, .tables [d.current])], ())
        | some (.tables elements) => some (es.put key (.tables (elements ++ [d.current])), ())
        | some _ => none
      else
        match es.get? key with
        | none => some (es ++ [(key, .table .header d.current)], ())
        | some _ => none) path .header d.root).map (·.1)

/-- Adds an entry. -/
def addEntry (d : Draft) (path : List String) (key : String) (v : Value) : Option Draft :=
  (d.current.insert path key v).map fun current => { d with current }

/-- Begins the table under a header. One that is there because it was on the way to another header is
gone on with, and moves behind the others. -/
def beginTable (d : Draft) (path : List String) (key : String) : Option Draft := do
  let root ← d.finish
  let (root, current) ← Entries.visit false (fun _ es =>
    match es.get? key with
    | none => some (es, [])
    | some (.table .implied inner) => some (es.erase key, inner)
    | some _ => none) path .header root
  some { root, path := some (path, key), repeated := false, current }

/-- Begins the next table under a repeated header. -/
def beginElement (d : Draft) (path : List String) (key : String) : Option Draft := do
  let root ← d.finish
  let (root, ()) ← Entries.visit false (fun _ es =>
    match es.get? key with
    | none => some (es ++ [(key, .tables [])], ())
    | some (.tables _) => some (es, ())
    | some _ => none) path .header root
  some { root, path := some (path, key), repeated := true, current := [] }

end Draft

/-- The line of a header behind its first bracket. -/
def readHeader (d : Draft) : List Char → Option (Draft × List Char)
  | '[' :: rest => do
    let ((path, key), rest) ← readKey rest
    match rest with
    | ']' :: ']' :: rest =>
      let d ← d.beginElement path key
      let rest ← lineEnd? rest
      some (d, rest)
    | _ => none
  | rest => do
    let ((path, key), rest) ← readKey rest
    match rest with
    | ']' :: rest =>
      let d ← d.beginTable path key
      let rest ← lineEnd? rest
      some (d, rest)
    | _ => none

/-- The lines of a document. -/
def readDocument : Nat → Draft → List Char → Option Entries
  | 0, _, _ => none
  | fuel + 1, d, cs =>
    match skipBlanks cs with
    | [] => d.finish
    | '#' :: rest => (lineEnd? ('#' :: rest)).bind (readDocument fuel d)
    | '[' :: rest => (readHeader d rest).bind fun (d, rest) => readDocument fuel d rest
    | cs =>
      match break? cs with
      | some rest => readDocument fuel d rest
      | none => do
        let (((path, key), v), rest) ← readEntry (readValue (depthLimit - 1)) cs
        let d ← d.addEntry path key v
        readDocument fuel d (← lineEnd? rest)

/-- What may stand in front of a document. -/
def skipMark : List Char → List Char
  | '\ufeff' :: rest => rest
  | cs => cs

/-- The entries of a document, each line of which takes a character at least. -/
def read? (text : List Char) : Option Entries :=
  readDocument (text.length + 1) {} (skipMark text)

end Telemetry.Toml
