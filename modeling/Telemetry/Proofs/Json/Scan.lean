/-
The scanner on text that was written: each written piece is one token, whatever follows it.
-/
import Telemetry.Json.Token
import Telemetry.Proofs.Json.Literal
import Telemetry.Proofs.Number.Numeral

namespace Telemetry.Json

open Text.Utf8 (Octets encode)
open Number (Numeral)

variable {acc : List Token} {rest : Octets}

theorem scanFrom_nil : scanFrom acc [] = acc.reverse := by rw [scanFrom]

/-- A token is taken off where no space stands before it. -/
theorem scanFrom_read {b : UInt8} {bs : Octets} {t : Token} (hspace : isSpace b = false)
    (h : Token.read? (b :: bs) = some (t, rest)) :
    scanFrom acc (b :: bs) = scanFrom (t :: acc) rest := by
  rw [scanFrom, if_neg (by rw [hspace]; exact Bool.false_ne_true)]
  split
  · rename_i hnone
    rw [h] at hnone
    cases hnone
  · rename_i t' rest' hsome
    rw [h] at hsome
    cases hsome
    rfl

theorem scanFrom_mapOpen : scanFrom acc (123 :: rest) = scanFrom (.mapOpen :: acc) rest :=
  scanFrom_read rfl rfl

theorem scanFrom_mapClose : scanFrom acc (125 :: rest) = scanFrom (.mapClose :: acc) rest :=
  scanFrom_read rfl rfl

theorem scanFrom_comma : scanFrom acc (44 :: rest) = scanFrom (.comma :: acc) rest :=
  scanFrom_read rfl rfl

theorem scanFrom_colon : scanFrom acc (58 :: rest) = scanFrom (.colon :: acc) rest :=
  scanFrom_read rfl rfl

/-- A quoted text is one token. -/
theorem scanFrom_content {raw : Octets} (h : Literal.IsContent raw) :
    scanFrom acc (34 :: (raw ++ 34 :: rest)) = scanFrom (.text raw :: acc) rest := by
  have hread : Token.read? (34 :: (raw ++ 34 :: rest)) = some (.text raw, rest) := by
    rw [Token.read?, Literal.split_content h]
    rfl
  exact scanFrom_read rfl hread

theorem scanFrom_write (cs : List Char) :
    scanFrom acc (encode (Literal.write cs) ++ rest) =
      scanFrom (.text (Literal.body cs) :: acc) rest := by
  rw [Literal.encode_write, List.cons_append, List.append_assoc]
  exact scanFrom_content (Literal.isContent_body cs)

/-- A numeral is one token when no part of a number follows it. -/
theorem scanFrom_spelling {n : Numeral} {x : Octets} (h : n.Spelling x) (hrest : Number.Ends rest) :
    scanFrom acc (x ++ rest) = scanFrom (.number n :: acc) rest := by
  have hread := Numeral.readNumeral_spelling h hrest
  obtain ⟨b, bs, hb, hfirst⟩ := h.first rest
  rw [hb] at hread ⊢
  -- neither white space nor any other token begins with a digit or a minus sign
  have hother : ∀ c ∈ [91, 93, 123, 125, 44, 58, 34, 110, 116, 102, 32, 10, 9, 13], b ≠ c := by
    have hall : ∀ c ∈ [91, 93, 123, 125, 44, 58, 34, 110, 116, 102, 32, 10, 9, 13],
        ¬((c : UInt8) = 45 ∨ (48 ≤ c ∧ c ≤ 57)) := by decide +kernel
    rintro c hc rfl
    exact hall b hc hfirst
  have hspace : isSpace b = false := by
    have h32 := hother 32 (by decide)
    have h10 := hother 10 (by decide)
    have h9 := hother 9 (by decide)
    have h13 := hother 13 (by decide)
    simp [isSpace, h32, h10, h9, h13]
  apply scanFrom_read hspace
  unfold Token.read?
  split
  case h_11 =>
    rw [hread]
    rfl
  all_goals
    rename_i heq
    exact absurd (List.cons.inj heq).1 (hother _ (by decide))

theorem scanFrom_numeral {n : Numeral} (h : n.WellFormed) (hrest : Number.Ends rest) :
    scanFrom acc (encode n.chars ++ rest) = scanFrom (.number n :: acc) rest :=
  scanFrom_spelling h.spelling_chars hrest

end Telemetry.Json
