/-
Keys and values. Lists may go over several lines and end with a comma; tables that are written as values
stay on one line and do not.
-/
import Telemetry.Toml.Scalar

namespace Telemetry.Toml

/-- Keys may have fewer parts than this, and values may be nested less deeply. -/
def depthLimit : Nat := 80

def isBareKey (c : Char) : Bool :=
  let n := c.toNat
  (65 ≤ n && n ≤ 90) || (97 ≤ n && n ≤ 122) || (48 ≤ n && n ≤ 57) || c = '-' || c = '_'

/-- One part of a key: bare, or between quotes on one line. -/
def readKeyPart : Reader String := fun cs =>
  match cs with
  | '"' :: rest => readLine .double [] rest
  | '\x27' :: rest => readLine .single [] rest
  | cs =>
    let word := cs.takeWhile isBareKey
    if word.isEmpty then none else some (String.ofList word, cs.drop word.length)

/-- The parts of a key behind those read so far in reverse, at most `fuel` of them, with blanks
around. -/
def readKeyParts : Nat → List String → List Char → Option (List String × List Char)
  | 0, _, _ => none
  | fuel + 1, acc, cs => do
    let (part, rest) ← readKeyPart (skipBlanks cs)
    match skipBlanks rest with
    | '.' :: rest => readKeyParts fuel (part :: acc) rest
    | rest => some ((part :: acc).reverse, rest)

/-- A key: the path to its table and its last part. -/
def readKey : Reader (List String × String) := fun cs => do
  let (parts, rest) ← readKeyParts (depthLimit - 1) [] cs
  let last ← parts.getLast?
  some ((parts.dropLast, last), rest)

/-- What is behind blanks, comments and line breaks. A comment ends with its line. -/
def skipLines : Nat → List Char → Option (List Char)
  | 0, cs => some cs
  | fuel + 1, cs =>
    match skipBlanks cs with
    | '#' :: rest => (break? (skipComment ('#' :: rest))).bind (skipLines fuel)
    | rest =>
      match break? rest with
      | some rest => skipLines fuel rest
      | none => some rest

/-- The items of a list up to its end, behind those read so far in reverse. -/
def readItems (item : Reader Value) : Nat → List Value → List Char → Option (List Value × List Char)
  | 0, _, _ => none
  | fuel + 1, acc, cs => do
    match ← skipLines cs.length cs with
    | ']' :: rest => some (acc.reverse, rest)
    | cs =>
      let (v, rest) ← item cs
      match ← skipLines rest.length rest with
      | ',' :: rest => readItems item fuel (v :: acc) rest
      | ']' :: rest => some ((v :: acc).reverse, rest)
      | _ => none

/-- A key, a sign of equality and a value. -/
def readEntry (value : Reader Value) : Reader ((List String × String) × Value) := fun cs => do
  let (key, rest) ← readKey cs
  match rest with
  | '=' :: rest =>
    let (v, rest) ← value (skipBlanks rest)
    some ((key, v), rest)
  | _ => none

/-- The entries of a table that is written as a value, added to those read so far. -/
def readPairs (value : Reader Value) : Nat → Entries → List Char → Option (Entries × List Char)
  | 0, _, _ => none
  | fuel + 1, acc, cs => do
    let (((path, key), v), rest) ← readEntry value cs
    let acc ← acc.insert path key v
    match skipBlanks rest with
    | ',' :: rest => readPairs value fuel acc rest
    | '}' :: rest => some (acc, rest)
    | _ => none

/-- A value in which lists and tables are nested fewer than `depth` deep. -/
def readValue : Nat → Reader Value
  | _, '"' :: rest => (readText .double ('"' :: rest)).map fun (s, rest) => (.text s, rest)
  | _, '\x27' :: rest => (readText .single ('\x27' :: rest)).map fun (s, rest) => (.text s, rest)
  | depth + 1, '[' :: rest =>
    (readItems (readValue depth) (rest.length + 1) [] rest).map fun (vs, rest) => (.list vs, rest)
  | depth + 1, '\x7b' :: rest =>
    match skipBlanks rest with
    | '\x7d' :: rest => some (.table .inline [], rest)
    | rest =>
      (readPairs (readValue depth) (rest.length + 1) [] rest).map fun (es, rest) =>
        (.table .inline es, rest)
  | _, 't' :: 'r' :: 'u' :: 'e' :: rest => some (.bool true, rest)
  | _, 'f' :: 'a' :: 'l' :: 's' :: 'e' :: rest => some (.bool false, rest)
  | _, 'i' :: 'n' :: 'f' :: rest => some (.double (.infinity false), rest)
  | _, 'n' :: 'a' :: 'n' :: rest => some (.double .nan, rest)
  | _, cs => readNumber cs

end Telemetry.Toml
