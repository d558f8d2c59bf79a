/-
Base64 text spells octets in one way only. What the writer writes is read back (`decode?_encode`), and
the reader takes nothing that the writer would not write (`encode_of_decode?`): no other alphabet, no
missing or further padding, no blanks, and no bits that stand for nothing.
-/
import Mathlib.Tactic.Common
import Telemetry.Envelope.Base64
import Telemetry.Proofs.Text.Utf8

namespace Telemetry.Envelope.Base64

open Text.Utf8 (Octets toNat_octet)

/-! ## Characters -/

variable {n : Nat} {c w x y z : Char} {bs : Octets}

theorem sextet?_symbol (h : n < 64) : sextet? (symbol n) = some n := by
  revert n
  decide

/-- The alphabet, by what its characters stand for. -/
example : (List.range 64).map symbol =
    "ABCDEFGHIJKLMNOPQRSTUVWXYZabcdefghijklmnopqrstuvwxyz0123456789+/".toList := by decide

/-- Six bits have one character. -/
theorem eq_symbol_of_sextet? (h : sextet? c = some n) : n < 64 ∧ c = symbol n := by
  have back : c = Char.ofNat c.toNat := (Char.ofNat_toNat c).symm
  unfold sextet? at h
  dsimp only at h
  split at h
  · cases h
    refine ⟨by omega, ?_⟩
    rw [symbol, if_pos (by omega), show 65 + (c.toNat - 65) = c.toNat by omega]
    exact back
  · split at h
    · cases h
      refine ⟨by omega, ?_⟩
      rw [symbol, if_neg (by omega), if_pos (by omega), show 71 + (c.toNat - 71) = c.toNat by omega]
      exact back
    · split at h
      · cases h
        refine ⟨by omega, ?_⟩
        rw [symbol, if_neg (by omega), if_neg (by omega), if_pos (by omega), Nat.add_sub_cancel]
        exact back
      · split at h
        · cases h
          exact ⟨by decide, ‹_›⟩
        · split at h
          · cases h
            exact ⟨by decide, ‹_›⟩
          · cases h

/-- The padding is no character of the alphabet. -/
theorem symbol_ne_pad (h : n < 64) : symbol n ≠ '=' := by
  revert n
  decide

/-! ## Groups -/

theorem single?_symbols (a : UInt8) :
    single? (symbol (a.toNat / 4)) (symbol (a.toNat % 4 * 16)) = some [a] := by
  have ha := a.toNat_lt
  have low : a.toNat % 4 * 16 % 16 = 0 := by omega
  have whole : a.toNat / 4 * 4 + a.toNat % 4 * 16 / 16 = a.toNat := by omega
  simp only [single?, sextet?_symbol (n := a.toNat / 4) (by omega),
    sextet?_symbol (n := a.toNat % 4 * 16) (by omega), Option.bind_eq_bind, Option.bind_some, low, whole]
  simp

theorem pair?_symbols (a b : UInt8) :
    pair? (symbol (a.toNat / 4)) (symbol (a.toNat % 4 * 16 + b.toNat / 16)) (symbol (b.toNat % 16 * 4)) =
      some [a, b] := by
  have ha := a.toNat_lt
  have hb := b.toNat_lt
  have low : b.toNat % 16 * 4 % 4 = 0 := by omega
  have first : a.toNat / 4 * 4 + (a.toNat % 4 * 16 + b.toNat / 16) / 16 = a.toNat := by omega
  have second : (a.toNat % 4 * 16 + b.toNat / 16) % 16 * 16 + b.toNat % 16 * 4 / 4 = b.toNat := by omega
  simp only [pair?, sextet?_symbol (n := a.toNat / 4) (by omega),
    sextet?_symbol (n := a.toNat % 4 * 16 + b.toNat / 16) (by omega),
    sextet?_symbol (n := b.toNat % 16 * 4) (by omega), Option.bind_eq_bind, Option.bind_some, low, first, second]
  simp

theorem triple?_symbols (a b c : UInt8) :
    triple? (symbol (a.toNat / 4)) (symbol (a.toNat % 4 * 16 + b.toNat / 16))
      (symbol (b.toNat % 16 * 4 + c.toNat / 64)) (symbol (c.toNat % 64)) = some [a, b, c] := by
  have ha := a.toNat_lt
  have hb := b.toNat_lt
  have hc := c.toNat_lt
  have first : a.toNat / 4 * 4 + (a.toNat % 4 * 16 + b.toNat / 16) / 16 = a.toNat := by omega
  have second : (a.toNat % 4 * 16 + b.toNat / 16) % 16 * 16 + (b.toNat % 16 * 4 + c.toNat / 64) / 4 =
      b.toNat := by omega
  have third : (b.toNat % 16 * 4 + c.toNat / 64) % 4 * 64 + c.toNat % 64 = c.toNat := by omega
  simp only [triple?, sextet?_symbol (n := a.toNat / 4) (by omega),
    sextet?_symbol (n := a.toNat % 4 * 16 + b.toNat / 16) (by omega),
    sextet?_symbol (n := b.toNat % 16 * 4 + c.toNat / 64) (by omega),
    sextet?_symbol (n := c.toNat % 64) (by omega), Option.bind_eq_bind, Option.bind_some, first, second, third]
  simp

/-- A last group of one octet has nothing but zeros in the bits that it does not use. -/
theorem encode_of_single? (h : single? w x = some bs) : [w, x, '=', '='] = encode bs := by
  obtain ⟨m, hw, second⟩ := Option.bind_eq_some_iff.1 h
  obtain ⟨n, hx, last⟩ := Option.bind_eq_some_iff.1 second
  obtain ⟨hm, rfl⟩ := eq_symbol_of_sextet? hw
  obtain ⟨hn, rfl⟩ := eq_symbol_of_sextet? hx
  split at last
  · cases last
    have octet := toNat_octet (n := m * 4 + n / 16) (by omega)
    simp only [encode, octet]
    rw [show (m * 4 + n / 16) / 4 = m by omega, show (m * 4 + n / 16) % 4 * 16 = n by omega]
  · cases last

theorem encode_of_pair? (h : pair? w x y = some bs) : [w, x, y, '='] = encode bs := by
  obtain ⟨m, hw, second⟩ := Option.bind_eq_some_iff.1 h
  obtain ⟨n, hx, third⟩ := Option.bind_eq_some_iff.1 second
  obtain ⟨k, hy, last⟩ := Option.bind_eq_some_iff.1 third
  obtain ⟨hm, rfl⟩ := eq_symbol_of_sextet? hw
  obtain ⟨hn, rfl⟩ := eq_symbol_of_sextet? hx
  obtain ⟨hk, rfl⟩ := eq_symbol_of_sextet? hy
  split at last
  · cases last
    have first := toNat_octet (n := m * 4 + n / 16) (by omega)
    have second := toNat_octet (n := n % 16 * 16 + k / 4) (by omega)
    simp only [encode, first, second]
    rw [show (m * 4 + n / 16) / 4 = m by omega,
      show (m * 4 + n / 16) % 4 * 16 + (n % 16 * 16 + k / 4) / 16 = n by omega,
      show (n % 16 * 16 + k / 4) % 16 * 4 = k by omega]
  · cases last

theorem encode_of_triple? (h : triple? w x y z = some bs) (rest : Octets) :
    w :: x :: y :: z :: encode rest = encode (bs ++ rest) := by
  obtain ⟨m, hw, second⟩ := Option.bind_eq_some_iff.1 h
  obtain ⟨n, hx, third⟩ := Option.bind_eq_some_iff.1 second
  obtain ⟨k, hy, fourth⟩ := Option.bind_eq_some_iff.1 third
  obtain ⟨l, hz, last⟩ := Option.bind_eq_some_iff.1 fourth
  obtain ⟨hm, rfl⟩ := eq_symbol_of_sextet? hw
  obtain ⟨hn, rfl⟩ := eq_symbol_of_sextet? hx
  obtain ⟨hk, rfl⟩ := eq_symbol_of_sextet? hy
  obtain ⟨hl, rfl⟩ := eq_symbol_of_sextet? hz
  cases last
  have first := toNat_octet (n := m * 4 + n / 16) (by omega)
  have second := toNat_octet (n := n % 16 * 16 + k / 4) (by omega)
  have third := toNat_octet (n := k % 4 * 64 + l) (by omega)
  simp only [List.cons_append, List.nil_append, encode, first, second, third]
  rw [show (m * 4 + n / 16) / 4 = m by omega,
    show (m * 4 + n / 16) % 4 * 16 + (n % 16 * 16 + k / 4) / 16 = n by omega,
    show (n % 16 * 16 + k / 4) % 16 * 4 + (k % 4 * 64 + l) / 64 = k by omega,
    show (k % 4 * 64 + l) % 64 = l by omega]

/-! ## Texts -/

/-- A group that does not end in the padding is a full one, whatever follows. -/
theorem decode?_group (h : z ≠ '=') (rest : List Char) :
    decode? (w :: x :: y :: z :: rest) =
      (triple? w x y z).bind fun group => (decode? rest).map (group ++ ·) := by
  rw [decode?.eq_def]
  split
  · rename_i heq
    cases heq
  · rename_i heq
    cases heq
    exact absurd rfl h
  · rename_i heq
    cases heq
    exact absurd rfl h
  · rename_i heq
    cases heq
    simp only [Option.bind_eq_bind]
    congr 1
    funext group
    cases decode? rest <;> rfl
  · rename_i other
    exact absurd rfl (other _ _ _ _ _)

/-- What was written is read back. -/
theorem decode?_encode (bs : Octets) : decode? (encode bs) = some bs := by
  fun_induction encode bs with
  | case1 => rfl
  | case2 a => exact single?_symbols a
  | case3 a b =>
    have pad : symbol (b.toNat % 16 * 4) ≠ '=' := by
      have hb := b.toNat_lt
      exact symbol_ne_pad (by omega)
    rw [decode?.eq_3]
    · exact pair?_symbols a b
    · exact pad
  | case4 a b c rest ih =>
    have hc := c.toNat_lt
    rw [decode?_group (symbol_ne_pad (by omega)), triple?_symbols, ih]
    rfl

/-- What is read was written so. -/
theorem encode_of_decode? {text : List Char} (h : decode? text = some bs) : text = encode bs := by
  fun_induction decode? text generalizing bs with
  | case1 =>
    cases h
    rfl
  | case2 w x => exact encode_of_single? h
  | case3 w x y pad => exact encode_of_pair? h
  | case4 w x y z rest single pair ih =>
    obtain ⟨group, full, h⟩ := Option.bind_eq_some_iff.1 h
    obtain ⟨others, behind, h⟩ := Option.bind_eq_some_iff.1 h
    cases h
    rw [ih behind]
    exact encode_of_triple? full others
  | case5 text => cases h

/-- The reader takes a text for some octets exactly when it is the one that the writer writes. -/
theorem decode?_eq_some_iff {text : List Char} : decode? text = some bs ↔ text = encode bs := by
  constructor
  · exact encode_of_decode?
  · rintro rfl
    exact decode?_encode bs

/-- Four characters for every three octets and for what is left of them. -/
theorem length_encode (bs : Octets) : (encode bs).length = 4 * ((bs.length + 2) / 3) := by
  fun_induction encode bs with
  | case1 => rfl
  | case2 a => simp only [List.length_cons, List.length_nil]
  | case3 a b => simp only [List.length_cons, List.length_nil]
  | case4 a b c rest ih =>
    simp only [List.length_cons, ih]
    omega

end Telemetry.Envelope.Base64
