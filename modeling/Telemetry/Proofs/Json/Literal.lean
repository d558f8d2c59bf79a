/-
Quoted text that is written and read again is the same text. The reader's first pass stops at the
closing quote because the grammar leaves no other bare quote behind, and what is written keeps to the
grammar; the second pass undoes the writer's escapes one by one.
-/
import Telemetry.Json.Literal
import Telemetry.Proofs.Text.Utf8

namespace Telemetry.Json.Literal

open Text (hexDigit)
open Text.Utf8 (Octets encode encodeChar toNat_octet)

variable {acc rest : Octets}

/-! ## Octets that stand for themselves -/

/-- Neither a quote, nor a backslash, nor a control character. -/
def IsPlain (b : UInt8) : Prop := 32 ≤ b.toNat ∧ b.toNat ≠ 34 ∧ b.toNat ≠ 92

theorem IsPlain.ne_slash {b : UInt8} (h : IsPlain b) : b ≠ 92 := by
  rintro rfl
  exact h.2.2 rfl

theorem split_plain {b : UInt8} (h : IsPlain b) : split acc (b :: rest) = split (b :: acc) rest := by
  have hlow : ¬b < 32 := by
    rw [UInt8.lt_iff_toNat_lt]
    exact Nat.not_lt.2 h.1
  rw [split, if_neg hlow]
  · rintro rfl
    exact h.2.1 rfl
  · rintro _ _ _ _ _ hb
    exact absurd hb h.ne_slash
  · rintro _ _ hb
    exact absurd hb h.ne_slash

theorem unescape_plain {b : UInt8} (h : IsPlain b) :
    unescape acc (b :: rest) = unescape (b :: acc) rest := by
  rw [unescape]
  · rintro _ _ _ _ _ hb
    exact absurd hb h.ne_slash
  · rintro _ _ hb
    exact absurd hb h.ne_slash

theorem unescape_all_plain {bs : Octets} (h : ∀ b ∈ bs, IsPlain b) :
    unescape acc (bs ++ rest) = unescape (bs.reverse ++ acc) rest := by
  induction bs generalizing acc with
  | nil => rfl
  | cons b bs ih =>
    rw [List.cons_append, unescape_plain (h b List.mem_cons_self),
      ih fun c hc => h c (List.mem_cons_of_mem _ hc), List.reverse_cons, List.append_assoc]
    rfl

/-- Characters beyond ASCII have no octet below 128. -/
theorem isPlain_encodeChar {c : Char} (h1 : 32 ≤ c.toNat) (h2 : c.toNat ≠ 34) (h3 : c.toNat ≠ 92) :
    ∀ b ∈ encodeChar c, IsPlain b := by
  have hc := Text.Utf8.toNat_lt c
  have high {n : Nat} (hn : 128 ≤ n) (hn' : n < 256) : IsPlain (UInt8.ofNat n) := by
    unfold IsPlain
    rw [toNat_octet hn']
    omega
  have tail (n : Nat) : IsPlain (Text.Utf8.continuation n) := high (by omega) (by omega)
  unfold encodeChar
  simp only
  split
  · intro b hb
    obtain rfl := List.mem_singleton.1 hb
    unfold IsPlain
    rw [toNat_octet (by omega)]
    exact ⟨h1, h2, h3⟩
  · split
    · simp only [List.forall_mem_cons]
      exact ⟨high (by omega) (by omega), tail _, List.forall_mem_nil _⟩
    · split
      · simp only [List.forall_mem_cons]
        exact ⟨high (by omega) (by omega), tail _, tail _, List.forall_mem_nil _⟩
      · simp only [List.forall_mem_cons]
        exact ⟨high (by omega) (by omega), tail _, tail _, tail _, List.forall_mem_nil _⟩

/-! ## Text between quotes -/

/-- What the grammar allows between quotes. The octets need not be UTF-8. -/
inductive IsContent : Octets → Prop where
  | nil : IsContent []
  | plain {b : UInt8} {raw : Octets} (plain : IsPlain b) (more : IsContent raw) : IsContent (b :: raw)
  | short {b : UInt8} {raw : Octets} (known : (shortEscape? b).isSome) (more : IsContent raw) :
    IsContent (92 :: b :: raw)
  | unit {a b c d : UInt8} {raw : Octets} (known : (unit? a b c d).isSome) (more : IsContent raw) :
    IsContent (92 :: 117 :: a :: b :: c :: d :: raw)

theorem IsContent.all_plain {bs raw : Octets} (h : ∀ b ∈ bs, IsPlain b) (more : IsContent raw) :
    IsContent (bs ++ raw) := by
  induction bs with
  | nil => exact more
  | cons b bs ih =>
    exact .plain (h b List.mem_cons_self) (ih fun c hc => h c (List.mem_cons_of_mem _ hc))

/-- The first pass finds the closing quote: the content leaves no other bare quote behind. -/
theorem split_content {raw : Octets} (h : IsContent raw) (rest : Octets) :
    split acc (raw ++ 34 :: rest) = some (acc.reverse ++ raw, rest) := by
  induction h generalizing acc with
  | nil =>
    show split acc (34 :: rest) = some (acc.reverse ++ [], rest)
    rw [split, List.append_nil]
  | plain plain more ih =>
    rw [List.cons_append, split_plain plain, ih]
    simp
  | @short b raw known more ih =>
    have hunit : b ≠ 117 := by
      rintro rfl
      exact Bool.false_ne_true known
    rw [List.cons_append, List.cons_append, split, if_pos known, ih]
    · simp
    · rintro _ _ _ _ _ hb
      exact absurd hb hunit
  | @unit a b c d raw known more ih =>
    show split acc (92 :: 117 :: a :: b :: c :: d :: (raw ++ 34 :: rest)) = _
    rw [split, if_pos known, ih]
    simp

/-! ## One character between quotes -/

/-- The three ways in which a character is written. -/
inductive Escape (c : Char) : Prop where
  | short (b o : UInt8) (written : encode (escapeChar c) = [92, b]) (code : shortEscape? b = some o)
      (not_unit : b ≠ 117) (same : encodeChar c = [o])
  | unit (d e : UInt8) (written : encode (escapeChar c) = [92, 117, 48, 48, d, e])
      (code : unit? 48 48 d e = some c.toNat)
  | plain (written : encode (escapeChar c) = encodeChar c) (plain : ∀ b ∈ encodeChar c, IsPlain b)

theorem unit?_hexDigit : ∀ n < 32,
    unit? 48 48 (UInt8.ofNat (hexDigit (n / 16)).toNat) (UInt8.ofNat (hexDigit (n % 16)).toNat) = some n := by
  decide

theorem encode_hexDigit : ∀ n < 16, encodeChar (hexDigit n) = [UInt8.ofNat (hexDigit n).toNat] := by
  decide

theorem escape (c : Char) : Escape c := by
  have hof (n : Nat) (h : c.toNat = n) : c = Char.ofNat n := by rw [← h, Char.ofNat_toNat]
  by_cases hquote : c = '"'
  · subst hquote
    exact .short 34 34 (by decide) rfl (by decide) (by decide)
  by_cases hslash : c = '\\'
  · subst hslash
    exact .short 92 92 (by decide) rfl (by decide) (by decide)
  by_cases h8 : c.toNat = 8
  · rw [hof 8 h8]
    exact .short 98 8 (by decide) rfl (by decide) (by decide)
  by_cases h9 : c.toNat = 9
  · rw [hof 9 h9]
    exact .short 116 9 (by decide) rfl (by decide) (by decide)
  by_cases h10 : c.toNat = 10
  · rw [hof 10 h10]
    exact .short 110 10 (by decide) rfl (by decide) (by decide)
  by_cases h12 : c.toNat = 12
  · rw [hof 12 h12]
    exact .short 102 12 (by decide) rfl (by decide) (by decide)
  by_cases h13 : c.toNat = 13
  · rw [hof 13 h13]
    exact .short 114 13 (by decide) rfl (by decide) (by decide)
  -- whatever has no short escape
  have hlater : escapeChar c = if c.toNat < 32 then
      ['\\', 'u', '0', '0', hexDigit (c.toNat / 16), hexDigit (c.toNat % 16)] else [c] := by
    unfold escapeChar
    rw [if_neg hquote, if_neg hslash, if_neg h8, if_neg h9, if_neg h10, if_neg h12, if_neg h13]
  by_cases h32 : c.toNat < 32
  · refine .unit _ _ ?_ (unit?_hexDigit _ h32)
    rw [hlater, if_pos h32]
    unfold encode
    simp only [List.flatMap_cons, List.flatMap_nil, encode_hexDigit _ (by omega : c.toNat / 16 < 16),
      encode_hexDigit _ (by omega : c.toNat % 16 < 16)]
    rfl
  · refine .plain ?_ (isPlain_encodeChar (by omega) ?_ ?_)
    · rw [hlater, if_neg h32]
      exact List.append_nil _
    · intro h
      exact hquote (hof 34 h)
    · intro h
      exact hslash (hof 92 h)

/-- A character is no half of a pair. -/
theorem classify_toNat (c : Char) : classify c.toNat = .whole c := by
  have hvalid : c.toNat.isValidChar := c.valid
  unfold Nat.isValidChar at hvalid
  unfold classify
  rw [if_neg (by omega), if_neg (by omega), Char.ofNat_toNat]

/-- A written character is something that the grammar allows. -/
theorem IsContent.escapeChar (c : Char) {raw : Octets} (more : IsContent raw) :
    IsContent (encode (escapeChar c) ++ raw) := by
  cases escape c with
  | short b o written code not_unit same =>
    rw [written]
    exact .short (by rw [code]; rfl) more
  | unit d e written code =>
    rw [written]
    exact .unit (by rw [code]; rfl) more
  | plain written plain =>
    rw [written]
    exact .all_plain plain more

/-- The second pass turns a written character into the character. -/
theorem unescape_escapeChar (c : Char) :
    unescape acc (encode (escapeChar c) ++ rest) = unescape ((encodeChar c).reverse ++ acc) rest := by
  cases escape c with
  | short b o written code not_unit same =>
    rw [written, same]
    show unescape acc (92 :: b :: rest) = _
    rw [unescape, code]
    · rfl
    · rintro _ _ _ _ _ hb
      exact absurd hb not_unit
  | unit d e written code =>
    rw [written]
    show unescape acc (92 :: 117 :: 48 :: 48 :: d :: e :: rest) = _
    rw [unescape, code]
    simp only [classify_toNat]
  | plain written plain =>
    rw [written]
    exact unescape_all_plain plain

/-! ## Quoted text -/

/-- The octets between the quotes of a text. -/
def body (cs : List Char) : Octets := encode (cs.flatMap escapeChar)

theorem body_cons (c : Char) (cs : List Char) : body (c :: cs) = encode (escapeChar c) ++ body cs := by
  unfold body encode
  rw [List.flatMap_cons, List.flatMap_append]

theorem encode_write (cs : List Char) : encode (write cs) = 34 :: (body cs ++ [34]) := by
  unfold write body encode
  rw [List.cons_append, List.flatMap_cons, List.flatMap_append]
  rfl

theorem isContent_body (cs : List Char) : IsContent (body cs) := by
  induction cs with
  | nil => exact .nil
  | cons c cs ih =>
    rw [body_cons]
    exact ih.escapeChar c

/-- The second pass gives the characters back. -/
theorem unescape_body (cs : List Char) : unescape acc (body cs) = some (acc.reverse ++ encode cs) := by
  induction cs generalizing acc with
  | nil =>
    show unescape acc [] = some (acc.reverse ++ [])
    rw [unescape, List.append_nil]
  | cons c cs ih =>
    rw [body_cons, unescape_escapeChar, ih]
    simp [encode]

/-- A string that is written and read again is the same string. -/
theorem string?_body (s : String) : string? (body s.toList) = some s := by
  unfold string? decode?
  rw [unescape_body]
  simp [Text.Utf8.decode_encode]

end Telemetry.Json.Literal
