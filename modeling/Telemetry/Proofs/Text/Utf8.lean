/-
Text that is encoded and decoded again is the same text: the first octet of a character tells how
many follow, and its bits are put together as they were taken apart.
-/
import Mathlib.Tactic.Common
import Telemetry.Text.Utf8

namespace Telemetry.Text.Utf8

theorem toNat_octet {n : Nat} (h : n < 256) : (UInt8.ofNat n).toNat = n := by
  rw [UInt8.toNat_ofNat']
  omega

theorem octet_lt_iff {n m : Nat} (hn : n < 256) (hm : m < 256) :
    UInt8.ofNat n < UInt8.ofNat m ↔ n < m := by
  rw [UInt8.lt_iff_toNat_lt, toNat_octet hn, toNat_octet hm]

theorem octet_le_iff {n m : Nat} (hn : n < 256) (hm : m < 256) :
    UInt8.ofNat n ≤ UInt8.ofNat m ↔ n ≤ m := by
  rw [UInt8.le_iff_toNat_le, toNat_octet hn, toNat_octet hm]

theorem tail?_continuation (n : Nat) : tail? (continuation n) = some (n % 64) := by
  have hlow : (128 : UInt8) ≤ UInt8.ofNat (128 + n % 64) :=
    (octet_le_iff (n := 128) (by omega) (by omega)).2 (by omega)
  have hhigh : UInt8.ofNat (128 + n % 64) < 192 :=
    (octet_lt_iff (m := 192) (by omega) (by omega)).2 (by omega)
  unfold tail? continuation
  rw [if_pos ⟨hlow, hhigh⟩, toNat_octet (by omega), Nat.add_sub_cancel_left]

theorem scalar?_toNat (c : Char) {least : Nat} (h : least ≤ c.toNat) :
    scalar? least c.toNat = some c := by
  unfold scalar?
  rw [if_pos ⟨h, c.valid⟩, Char.ofNat_toNat]

theorem toNat_lt (c : Char) : c.toNat < 0x110000 := by
  have hvalid : c.toNat.isValidChar := c.valid
  unfold Nat.isValidChar at hvalid
  omega

/-! ## One character -/

section Steps

variable {acc : List Char} {ch : Char} {n : Nat} {b c d : UInt8} {rest : Octets}

theorem decodeFrom_one (h : n < 0x80) :
    decodeFrom acc (UInt8.ofNat n :: rest) = decodeFrom (Char.ofNat n :: acc) rest := by
  have h1 : UInt8.ofNat n < 0x80 := (octet_lt_iff (m := 0x80) (by omega) (by omega)).2 h
  rw [decodeFrom.eq_def]
  simp only
  rw [if_pos h1, toNat_octet (by omega)]

theorem decodeFrom_two (h : 0xC0 ≤ n) (h' : n < 0xE0) (hch : two? (UInt8.ofNat n) b = some ch) :
    decodeFrom acc (UInt8.ofNat n :: b :: rest) = decodeFrom (ch :: acc) rest := by
  have h1 : ¬UInt8.ofNat n < 0x80 := (octet_lt_iff (m := 0x80) (by omega) (by omega)).not.2 (by omega)
  have h2 : ¬UInt8.ofNat n < 0xC0 := (octet_lt_iff (m := 0xC0) (by omega) (by omega)).not.2 (by omega)
  have h3 : UInt8.ofNat n < 0xE0 := (octet_lt_iff (m := 0xE0) (by omega) (by omega)).2 h'
  rw [decodeFrom.eq_def]
  simp only
  rw [if_neg h1, if_neg h2, if_pos h3, hch]

theorem decodeFrom_three (h : 0xE0 ≤ n) (h' : n < 0xF0)
    (hch : three? (UInt8.ofNat n) b c = some ch) :
    decodeFrom acc (UInt8.ofNat n :: b :: c :: rest) = decodeFrom (ch :: acc) rest := by
  have h1 : ¬UInt8.ofNat n < 0x80 := (octet_lt_iff (m := 0x80) (by omega) (by omega)).not.2 (by omega)
  have h2 : ¬UInt8.ofNat n < 0xC0 := (octet_lt_iff (m := 0xC0) (by omega) (by omega)).not.2 (by omega)
  have h3 : ¬UInt8.ofNat n < 0xE0 := (octet_lt_iff (m := 0xE0) (by omega) (by omega)).not.2 (by omega)
  have h4 : UInt8.ofNat n < 0xF0 := (octet_lt_iff (m := 0xF0) (by omega) (by omega)).2 h'
  rw [decodeFrom.eq_def]
  simp only
  rw [if_neg h1, if_neg h2, if_neg h3, if_pos h4, hch]

theorem decodeFrom_four (h : 0xF0 ≤ n) (h' : n < 0xF8)
    (hch : four? (UInt8.ofNat n) b c d = some ch) :
    decodeFrom acc (UInt8.ofNat n :: b :: c :: d :: rest) = decodeFrom (ch :: acc) rest := by
  have h1 : ¬UInt8.ofNat n < 0x80 := (octet_lt_iff (m := 0x80) (by omega) (by omega)).not.2 (by omega)
  have h2 : ¬UInt8.ofNat n < 0xC0 := (octet_lt_iff (m := 0xC0) (by omega) (by omega)).not.2 (by omega)
  have h3 : ¬UInt8.ofNat n < 0xE0 := (octet_lt_iff (m := 0xE0) (by omega) (by omega)).not.2 (by omega)
  have h4 : ¬UInt8.ofNat n < 0xF0 := (octet_lt_iff (m := 0xF0) (by omega) (by omega)).not.2 (by omega)
  have h5 : UInt8.ofNat n < 0xF8 := (octet_lt_iff (m := 0xF8) (by omega) (by omega)).2 h'
  rw [decodeFrom.eq_def]
  simp only
  rw [if_neg h1, if_neg h2, if_neg h3, if_neg h4, if_pos h5, hch]

end Steps

/-- Decoding takes one character at a time. -/
theorem decodeFrom_encodeChar (acc : List Char) (c : Char) (rest : Octets) :
    decodeFrom acc (encodeChar c ++ rest) = decodeFrom (c :: acc) rest := by
  have hc := toNat_lt c
  unfold encodeChar
  simp only
  by_cases h1 : c.toNat < 0x80
  · rw [if_pos h1, List.singleton_append, decodeFrom_one h1, Char.ofNat_toNat]
  by_cases h2 : c.toNat < 0x800
  · rw [if_neg h1, if_pos h2]
    apply decodeFrom_two (by omega) (by omega)
    unfold two?
    simp only [tail?_continuation, Option.bind_eq_bind, Option.bind_some]
    rw [toNat_octet (by omega), show (0xC0 + c.toNat / 64 - 0xC0) * 64 + c.toNat % 64 = c.toNat by omega]
    exact scalar?_toNat c (by omega)
  by_cases h3 : c.toNat < 0x10000
  · rw [if_neg h1, if_neg h2, if_pos h3]
    apply decodeFrom_three (by omega) (by omega)
    unfold three?
    simp only [tail?_continuation, Option.bind_eq_bind, Option.bind_some]
    rw [toNat_octet (by omega), show ((0xE0 + c.toNat / 4096 - 0xE0) * 64 + c.toNat / 64 % 64) * 64 +
      c.toNat % 64 = c.toNat by omega]
    exact scalar?_toNat c (by omega)
  · rw [if_neg h1, if_neg h2, if_neg h3]
    apply decodeFrom_four (by omega) (by omega)
    unfold four?
    simp only [tail?_continuation, Option.bind_eq_bind, Option.bind_some]
    rw [toNat_octet (by omega), show (((0xF0 + c.toNat / 262144 - 0xF0) * 64 + c.toNat / 4096 % 64) * 64 +
      c.toNat / 64 % 64) * 64 + c.toNat % 64 = c.toNat by omega]
    exact scalar?_toNat c (by omega)

theorem decodeFrom_encode (acc cs : List Char) :
    decodeFrom acc (encode cs) = some (acc.reverse ++ cs) := by
  unfold encode
  induction cs generalizing acc with
  | nil => simp [decodeFrom]
  | cons c cs ih =>
    rw [List.flatMap_cons, decodeFrom_encodeChar, ih]
    simp

/-- Decoding undoes encoding, whatever the characters. -/
theorem decode_encode (cs : List Char) : decode (encode cs) = some cs := decodeFrom_encode [] cs

end Telemetry.Text.Utf8
