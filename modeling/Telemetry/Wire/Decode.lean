/-
The reader of records and batches. Each reader gives its result and the tokens behind it, or the
first fault, so a wrong value in front of a syntax error is what gets reported. A record is an object
with its members in any order, or a list of its fields in their order; members with other names are
passed over. Objects have texts for keys: one that has anything else there, such as a number or `null`, is
malformed wherever it stands, and no complaint tells what the key is instead.
-/
import Telemetry.Json.Skip
import Telemetry.Wire.Fault

namespace Telemetry.Wire

open Number (Binary64 Reading)
open Json (Token Literal.string?)

/-- A complaint about the value at the beginning of a row. A text or a number that cannot be used,
and a row that begins with no value, is a syntax error. -/
def mismatch (expected : Expected) (ts : List Token) : Fault :=
  let wrong (found : Found) : Fault := .complaint (.wrongType found expected)
  match ts with
  | .null :: _ => wrong .null
  | .bool b :: _ => wrong (.bool b)
  | .number n :: _ => match n.reading? with
    | some r => wrong (.number r)
    | none => .malformed
  | .text raw :: _ => match Literal.string? raw with
    | some s => wrong (.text s)
    | none => .malformed
  | .listOpen :: _ => wrong .list
  | .mapOpen :: _ => wrong .map
  | _ => .malformed

/-- Reads a string. -/
def readString (expected : Expected) : List Token → Except Fault (String × List Token)
  | .text raw :: rest => match Literal.string? raw with
    | some s => .ok (s, rest)
    | none => .error .malformed
  | ts => .error (mismatch expected ts)

/-- The kind of that exact name. -/
def kindNamed (word : String) : Except Fault Kind :=
  if word = Kind.counter.word then .ok .counter
  else if word = Kind.gauge.word then .ok .gauge
  else .error (.complaint (.unknownKind word))

/-- The kind that a quoted text names. -/
def kindOf (raw : List UInt8) : Except Fault Kind :=
  match Literal.string? raw with
  | some word => kindNamed word
  | none => .error .malformed

/-- Reads a kind: its name, or an object with the name as its only member and `null` in it. An object
whose first key is no text is malformed. -/
def readKind : List Token → Except Fault (Kind × List Token)
  | .text raw :: rest => (kindOf raw).map fun kind => (kind, rest)
  | .mapOpen :: .text raw :: rest =>
    match kindOf raw, rest with
    | .error e, _ => .error e
    | .ok kind, .colon :: .null :: .mapClose :: rest => .ok (kind, rest)
    | .ok _, .colon :: .null :: _ => .error .malformed
    | .ok _, .colon :: rest => .error (mismatch .nothing rest)
    | .ok _, _ => .error .malformed
  | _ => .error .malformed

/-- The integer that a reading is, if it is one and fits. -/
def integerOf : Reading → Except Fault Int64
  | .natural n =>
    if n.toNat < 0x8000000000000000 then .ok (Int64.ofNat n.toNat) else .error (.complaint (.tooLarge n))
  | .negative n => .ok n
  | .double x => .error (.complaint (.wrongType (.number (.double x)) .integer))

/-- Reads an integer; `null` is none. -/
def readDelta : List Token → Except Fault (Option Int64 × List Token)
  | .null :: rest => .ok (none, rest)
  | .number n :: rest => match n.reading? with
    | some r => (integerOf r).map fun i => (some i, rest)
    | none => .error .malformed
  | ts => .error (mismatch .integer ts)

/-- Reads a number; `null` is none. -/
def readValue : List Token → Except Fault (Option Binary64 × List Token)
  | .null :: rest => .ok (none, rest)
  | .number n :: rest => match n.reading? with
    | some r => .ok (some r.toBinary64, rest)
    | none => .error .malformed
  | ts => .error (mismatch .number ts)

/-- The fields of a record that have been read so far. -/
structure Draft where
  id : Option String := none
  kind : Option Kind := none
  delta : Option (Option Int64) := none
  value : Option (Option Binary64) := none
deriving DecidableEq, Repr

namespace Draft

/-- Whether a field has been read; `null` counts. -/
def has (d : Draft) : Field → Bool
  | .id => d.id.isSome
  | .type => d.kind.isSome
  | .delta => d.delta.isSome
  | .value => d.value.isSome

/-- Reads the value of a field. -/
def readField (d : Draft) (f : Field) (ts : List Token) : Except Fault (Draft × List Token) :=
  match f with
  | .id => (readString .string ts).map fun (s, rest) => ({ d with id := some s }, rest)
  | .type => (readKind ts).map fun (k, rest) => ({ d with kind := some k }, rest)
  | .delta => (readDelta ts).map fun (i, rest) => ({ d with delta := some i }, rest)
  | .value => (readValue ts).map fun (x, rest) => ({ d with value := some x }, rest)

/-- The record that the fields make. Exactly the value field of its kind has to be there. -/
def record (d : Draft) : Except Fault Record :=
  match d.id, d.kind with
  | none, _ => .error (.complaint (.missing .id))
  | some _, none => .error (.complaint (.missing .type))
  | some id, some kind =>
    match kind, d.delta.join, d.value.join with
    | .counter, some i, none => .ok (Record.counter id i)
    | .gauge, none, some x => .ok (Record.gauge id x)
    | _, _, _ => .error (.complaint (.valueField id kind))

end Draft

/-- Reads one member of an object: a key, a colon and a value. -/
def readMember (d : Draft) : List Token → Except Fault (Draft × List Token)
  | .text raw :: rest => match Literal.string? raw with
    | none => .error .malformed
    | some key => match Field.ofKey? key, rest with
      | none, .colon :: rest => match Json.Skip.value? rest with
        | some rest => .ok (d, rest)
        | none => .error .malformed
      | none, _ => .error .malformed
      | some f, rest =>
        if d.has f then .error (.complaint (.duplicate f))
        else match rest with
          | .colon :: rest => d.readField f rest
          | _ => .error .malformed
  | _ => .error .malformed

/-! ## Readers use up tokens -/

theorem length_of_readString {e : Expected} {ts rest : List Token} {s : String}
    (h : readString e ts = .ok (s, rest)) : rest.length < ts.length := by
  unfold readString at h
  split at h
  · split at h
    · simp_all
    · simp at h
  · simp at h

theorem length_of_readKind {ts rest : List Token} {k : Kind}
    (h : readKind ts = .ok (k, rest)) : rest.length < ts.length := by
  unfold readKind at h
  split at h
  · rename_i raw r
    cases hk : kindOf raw <;> simp_all [Except.map]
  · split at h
    · simp at h
    · rename_i r _
      simp only [Except.ok.injEq, Prod.mk.injEq] at h
      simp only [List.length_cons, ← h.2]
      omega
    all_goals simp at h
  · simp at h

theorem length_of_readDelta {ts rest : List Token} {i : Option Int64}
    (h : readDelta ts = .ok (i, rest)) : rest.length < ts.length := by
  unfold readDelta at h
  split at h
  · simp_all
  · split at h
    · rename_i r _
      cases hr : integerOf r <;> simp_all [Except.map]
    · simp at h
  · simp at h

theorem length_of_readValue {ts rest : List Token} {x : Option Binary64}
    (h : readValue ts = .ok (x, rest)) : rest.length < ts.length := by
  unfold readValue at h
  split at h
  · simp_all
  · split at h
    · simp_all
    · simp at h
  · simp at h

theorem Draft.length_of_readField {d e : Draft} {f : Field} {ts rest : List Token}
    (h : d.readField f ts = .ok (e, rest)) : rest.length < ts.length := by
  cases f with
  | id =>
    cases hr : readString .string ts with
    | error e => simp [readField, hr, Except.map] at h
    | ok p =>
      have := length_of_readString (s := p.1) hr
      simp_all [readField, Except.map]
  | type =>
    cases hr : readKind ts with
    | error e => simp [readField, hr, Except.map] at h
    | ok p =>
      have := length_of_readKind (k := p.1) hr
      simp_all [readField, Except.map]
  | delta =>
    cases hr : readDelta ts with
    | error e => simp [readField, hr, Except.map] at h
    | ok p =>
      have := length_of_readDelta (i := p.1) hr
      simp_all [readField, Except.map]
  | value =>
    cases hr : readValue ts with
    | error e => simp [readField, hr, Except.map] at h
    | ok p =>
      have := length_of_readValue (x := p.1) hr
      simp_all [readField, Except.map]

theorem length_of_readMember {d e : Draft} {ts rest : List Token}
    (h : readMember d ts = .ok (e, rest)) : rest.length < ts.length := by
  unfold readMember at h
  split at h
  · split at h
    · simp at h
    · split at h
      · split at h
        · rename_i r _ _ hs
          have := Json.Skip.length_of_value? hs
          simp only [Except.ok.injEq, Prod.mk.injEq] at h
          simp only [List.length_cons, ← h.2]
          omega
        · simp at h
      · simp at h
      · split at h
        · simp at h
        · split at h
          · have := Draft.length_of_readField h
            simp only [List.length_cons]
            omega
          · simp at h
  · simp at h

/-! ## Records and batches -/

/-- Reads members until the object is closed. -/
def readMembers (d : Draft) (ts : List Token) : Except Fault (Draft × List Token) :=
  match _h : readMember d ts with
  | .error e => .error e
  | .ok (d, .comma :: rest) => readMembers d rest
  | .ok (d, .mapClose :: rest) => .ok (d, rest)
  | .ok _ => .error .malformed
termination_by ts.length
decreasing_by
  have := length_of_readMember _h
  simp only [List.length_cons] at this
  omega

theorem length_of_readMembers {d e : Draft} {ts rest : List Token}
    (h : readMembers d ts = .ok (e, rest)) : rest.length < ts.length := by
  fun_induction readMembers d ts with
  | case1 => simp at h
  | case2 d ts d1 r hm ih =>
    have := length_of_readMember hm
    have := ih h
    simp only [List.length_cons] at *
    omega
  | case3 d ts d1 r hm =>
    have := length_of_readMember hm
    simp only [Except.ok.injEq, Prod.mk.injEq] at h
    simp only [List.length_cons, ← h.2] at *
    omega
  | case4 => simp at h

/-- Reads the next field of a list; none when the list is closed here. -/
def readItem (d : Draft) (f : Field) : List Token → Except Fault (Option Draft × List Token)
  | .listClose :: rest => .ok (none, .listClose :: rest)
  | .comma :: rest => (d.readField f rest).map fun (d, rest) => (some d, rest)
  | _ => .error .malformed

theorem length_of_readItem {d : Draft} {f : Field} {ts rest : List Token} {r : Option Draft}
    (h : readItem d f ts = .ok (r, rest)) : rest.length ≤ ts.length := by
  unfold readItem at h
  split at h
  · simp only [Except.ok.injEq, Prod.mk.injEq] at h; simp [← h.2]
  · rename_i r'
    cases hr : d.readField f r' with
    | error e => simp [hr, Except.map] at h
    | ok p =>
      have := Draft.length_of_readField (e := p.1) hr
      simp only [hr, Except.map, Except.ok.injEq, Prod.mk.injEq] at h
      simp only [List.length_cons, ← h.2]
      omega
  · simp at h

/-- Reads the two fields at the end of a list, either of which the end of the list may forestall. -/
def readValueItems (d : Draft) (ts : List Token) : Except Fault (Draft × List Token) :=
  match readItem d .delta ts with
  | .error e => .error e
  | .ok (none, ts) => .ok (d, ts)
  | .ok (some d, ts) => match readItem d .value ts with
    | .error e => .error e
    | .ok (none, ts) => .ok (d, ts)
    | .ok (some d, ts) => .ok (d, ts)

/-- The end of a list. -/
def closeList {α : Type} : α × List Token → Except Fault (α × List Token)
  | (a, .listClose :: rest) => .ok (a, rest)
  | _ => .error .malformed

/-- Reads the fields of a record in their order, up to the end of the list. -/
def readFields (ts : List Token) : Except Fault (Draft × List Token) :=
  match ts with
  | .listClose :: _ => .error (.complaint (.tooShort 0))
  | ts => match Draft.readField {} .id ts with
    | .error e => .error e
    | .ok (d, ts) => match readItem d .type ts with
      | .error e => .error e
      | .ok (none, _) => .error (.complaint (.tooShort 1))
      | .ok (some d, ts) => (readValueItems d ts).bind closeList

theorem length_of_readValueItems {d e : Draft} {ts rest : List Token}
    (h : readValueItems d ts = .ok (e, rest)) : rest.length ≤ ts.length := by
  unfold readValueItems at h
  split at h
  · simp at h
  · rename_i hr
    have := length_of_readItem hr
    simp_all
  · rename_i hr
    have := length_of_readItem hr
    split at h
    · simp at h
    · rename_i hr
      have := length_of_readItem hr
      simp only [Except.ok.injEq, Prod.mk.injEq] at h
      rw [← h.2]; omega
    · rename_i hr
      have := length_of_readItem hr
      simp only [Except.ok.injEq, Prod.mk.injEq] at h
      rw [← h.2]; omega

theorem length_of_readFields {d : Draft} {ts rest : List Token}
    (h : readFields ts = .ok (d, rest)) : rest.length < ts.length := by
  unfold readFields at h
  split at h
  · simp at h
  · split at h
    · simp at h
    · rename_i hf
      have := Draft.length_of_readField hf
      split at h
      · simp at h
      · simp at h
      · rename_i hi
        have := length_of_readItem hi
        rename_i d2 ts2
        cases hv : readValueItems d2 ts2 with
        | error e => simp [hv, Except.bind] at h
        | ok p =>
          have hle : p.2.length ≤ ts2.length := length_of_readValueItems (e := p.1) hv
          simp only [hv, Except.bind, closeList] at h
          split at h
          · simp only [Except.ok.injEq, Prod.mk.injEq] at h
            simp only [List.length_cons, ← h.2] at *
            omega
          · simp at h

/-- Reads the fields of a record in either shape. -/
def readDraft : List Token → Except Fault (Draft × List Token)
  | .mapOpen :: .mapClose :: rest => .ok ({}, rest)
  | .mapOpen :: rest => readMembers {} rest
  | .listOpen :: rest => readFields rest
  | ts => .error (mismatch .record ts)

theorem length_of_readDraft {d : Draft} {ts rest : List Token}
    (h : readDraft ts = .ok (d, rest)) : rest.length < ts.length := by
  unfold readDraft at h
  split at h
  · simp only [Except.ok.injEq, Prod.mk.injEq] at h
    simp only [List.length_cons, ← h.2]
    omega
  · have := length_of_readMembers h
    simp only [List.length_cons]
    omega
  · have := length_of_readFields h
    simp only [List.length_cons]
    omega
  · simp at h

/-- Reads a record; what is behind it does not matter. -/
def readRecord (ts : List Token) : Except Fault (Record × List Token) :=
  match readDraft ts with
  | .error e => .error e
  | .ok (d, rest) => d.record.map fun r => (r, rest)

theorem length_of_readRecord {r : Record} {ts rest : List Token}
    (h : readRecord ts = .ok (r, rest)) : rest.length < ts.length := by
  unfold readRecord at h
  split at h
  · simp at h
  · rename_i d r' hd
    have := length_of_readDraft hd
    cases hr : d.record <;> simp_all [Except.map]

/-- Reads the items of a batch up to its end, behind those read so far in reverse. -/
def readRecords (acc : List Record) (ts : List Token) : Except Fault (Batch × List Token) :=
  match _h : readRecord ts with
  | .error e => .error e
  | .ok (r, .comma :: rest) => readRecords (r :: acc) rest
  | .ok (r, .listClose :: rest) => .ok ((r :: acc).reverse, rest)
  | .ok _ => .error .malformed
termination_by ts.length
decreasing_by
  have := length_of_readRecord _h
  simp only [List.length_cons] at this
  omega

/-- Reads a batch. -/
def readBatch : List Token → Except Fault (Batch × List Token)
  | .listOpen :: .listClose :: rest => .ok ([], rest)
  | .listOpen :: rest => readRecords [] rest
  | ts => .error (mismatch .batch ts)

/-- Nothing may stand behind a document. -/
def complete {α : Type} : Except Fault (α × List Token) → Except Fault α
  | .ok (a, []) => .ok a
  | .ok _ => .error .malformed
  | .error e => .error e

/-- The record that a document holds. -/
def decodeRecord (bs : List UInt8) : Except Fault Record := complete (readRecord (Json.scan bs))

/-- The batch that a document holds. -/
def decodeBatch (bs : List UInt8) : Except Fault Batch := complete (readBatch (Json.scan bs))

end Telemetry.Wire
