/-
A record's object, token by token, and what the reader makes of those tokens: the name and the kind
that were written, and then whatever the value's token is worth.
-/
import Telemetry.Wire.Decode
import Telemetry.Wire.Encode
import Telemetry.Proofs.Json.Scan

namespace Telemetry

open Json (Token scanFrom)
open Json.Literal (body write)
open Text.Utf8 (Octets encode)

/-! ## Writing -/

/-- The tokens of a record's object with the given token for its value. -/
def Record.tokens (r : Record) (value : Token) : List Token :=
  [.mapOpen, .text (body "id".toList), .colon, .text (body r.name.toList), .comma,
    .text (body "type".toList), .colon, .text (body r.kind.word.toList), .comma,
    .text (body r.value.wireKey.toList), .colon, value, .mapClose]

/-- The object as a row of quoted texts and punctuation. -/
theorem Record.encode_wireChars (r : Record) (rest : Octets) :
    encode r.wireChars ++ rest =
      123 :: (encode (write "id".toList) ++ 58 :: (encode (write r.name.toList) ++
        44 :: (encode (write "type".toList) ++ 58 :: (encode (write r.kind.word.toList) ++
          44 :: (encode (write r.value.wireKey.toList) ++ 58 :: (encode r.value.wireChars ++
            125 :: rest)))))) := by
  have hword : ∀ s ∈ ["counter", "gauge", "delta", "value"],
      write s.toList = '"' :: s.toList ++ ['"'] := by decide
  rw [hword r.kind.word (by cases r.kind <;> simp [Kind.word]),
    hword r.value.wireKey (by cases r.value <;> simp [Value.wireKey])]
  unfold Record.wireChars
  simp only [Number.encode_append, List.append_assoc, Number.encode_cons, List.cons_append]
  rfl

/-- The scanner reads the object as its tokens when it reads the value as one. -/
theorem Record.scanFrom_wireChars (r : Record) {value : Token} (acc : List Token) (rest : Octets)
    (h : ∀ acc, scanFrom acc (encode r.value.wireChars ++ 125 :: rest) =
      scanFrom (value :: acc) (125 :: rest)) :
    scanFrom acc (encode r.wireChars ++ rest) = scanFrom ((r.tokens value).reverse ++ acc) rest := by
  rw [r.encode_wireChars, Json.scanFrom_mapOpen, Json.scanFrom_write, Json.scanFrom_colon,
    Json.scanFrom_write, Json.scanFrom_comma, Json.scanFrom_write, Json.scanFrom_colon,
    Json.scanFrom_write, Json.scanFrom_comma, Json.scanFrom_write, Json.scanFrom_colon, h,
    Json.scanFrom_mapClose]
  rfl

/-! ## Reading -/

namespace Wire

variable {d e : Draft} {ts rest : List Token}

theorem ofKey?_word (f : Field) : Field.ofKey? f.word = some f := by
  cases f <;> decide

/-- A member whose key is a field that has not been read is the value of that field. -/
theorem readMember_field (f : Field) (hnew : d.has f = false) :
    readMember d (.text (body f.word.toList) :: .colon :: ts) = d.readField f ts := by
  unfold readMember
  simp only [Json.Literal.string?_body, ofKey?_word, hnew, Bool.false_eq_true, if_false]

theorem readMembers_comma (h : readMember d ts = .ok (e, .comma :: rest)) :
    readMembers d ts = readMembers e rest := by
  rw [readMembers]
  split <;> simp_all

theorem readMembers_close (h : readMember d ts = .ok (e, .mapClose :: rest)) :
    readMembers d ts = .ok (e, rest) := by
  rw [readMembers]
  split <;> simp_all

theorem readKind_word (k : Kind) :
    readKind (.text (body k.word.toList) :: rest) = .ok (k, rest) := by
  have hkind : kindOf (body k.word.toList) = .ok k := by
    unfold kindOf
    rw [Json.Literal.string?_body]
    cases k <;> rfl
  simp only [readKind, hkind]
  rfl

/-- The field that holds the value of a kind of record. -/
def valueField : Kind → Field
  | .counter => .delta
  | .gauge => .value

theorem word_valueField (r : Record) : (valueField r.kind).word = r.value.wireKey := by
  unfold Record.kind
  cases r.value <;> rfl

/-- What has been read of a record when its value comes next. -/
def named (r : Record) : Draft := { id := some r.name, kind := some r.kind }

/-- The tokens of a record's object are read up to the value, and that by itself. -/
theorem readDraft_tokens {r : Record} {value : Token} (rest : List Token)
    (h : (named r).readField (valueField r.kind) (value :: .mapClose :: rest) =
      .ok (d, .mapClose :: rest)) :
    readDraft (r.tokens value ++ rest) = .ok (d, rest) := by
  have hid (ts : List Token) : readMember {} (.text (body "id".toList) :: .colon :: .text (body r.name.toList) :: ts) =
      .ok ({ id := some r.name }, ts) := by
    rw [show "id" = Field.id.word from rfl, readMember_field .id rfl]
    simp only [Draft.readField, readString, Json.Literal.string?_body]
    rfl
  have htype (ts : List Token) : readMember { id := some r.name }
      (.text (body "type".toList) :: .colon :: .text (body r.kind.word.toList) :: ts) =
      .ok (named r, ts) := by
    rw [show "type" = Field.type.word from rfl, readMember_field .type rfl]
    simp only [Draft.readField, readKind_word]
    rfl
  have hvalue : readMember (named r)
      (.text (body r.value.wireKey.toList) :: .colon :: value :: .mapClose :: rest) =
      .ok (d, .mapClose :: rest) := by
    rw [← word_valueField, readMember_field _ (by cases r.kind <;> rfl)]
    exact h
  unfold Record.tokens readDraft
  simp only [List.cons_append, List.nil_append]
  rw [readMembers_comma (hid _), readMembers_comma (htype _), readMembers_close hvalue]

end Wire

end Telemetry
