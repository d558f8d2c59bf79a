/-
Signatures are exact. A payload is signed when there is a key, an empty one being none; the signature is
the base64 text of the keyed hash, and a receiver with a key takes that text and no other one
(`signature_exact`). A receiver without a key takes everything.
-/
import Telemetry.Envelope.Basic
import Telemetry.Proofs.Envelope.Base64

namespace Telemetry.Envelope

open Text.Utf8 (Octets)

variable {key : Option Octets} {k payload : Octets} {text : String}

/-! ## Keys and headers -/

theorem signingKey_eq_some_iff : signingKey key = some k ↔ key = some k ∧ k ≠ [] := by
  unfold signingKey
  rw [Option.filter_eq_some_iff]
  simp

theorem signingKey_eq_none_iff : signingKey key = none ↔ ∀ k, key = some k → k = [] := by
  unfold signingKey
  rw [Option.filter_eq_none_iff]
  simp

/-- The header of an envelope is its signature, and there is none without one. -/
theorem lookup_signatureHeader (e : Envelope) : e.headers.lookup signatureHeader = e.signature := by
  obtain ⟨body, signature⟩ := e
  cases signature <;> rfl

/-! ## The text of a signature -/

theorem toList_sign (k payload : Octets) : (sign k payload).toList = Base64.encode (Hmac.mac k payload) :=
  String.toList_ofList

theorem length_sign (k payload : Octets) : (sign k payload).length = 44 := by
  rw [← String.length_toList, toList_sign, Base64.length_encode, Hmac.length_mac]

/-- Only one text is read as the keyed hash: its signature. -/
theorem eq_sign_iff : text = sign k payload ↔ Base64.decode? text.toList = some (Hmac.mac k payload) := by
  rw [Base64.decode?_eq_some_iff, ← toList_sign, String.toList_inj]

/-! ## Receivers -/

theorem verify_iff (h : signingKey key = some k) : verify key payload text = true ↔ text = sign k payload := by
  unfold verify
  rw [h, eq_sign_iff]
  exact beq_iff_eq

theorem verify_of_no_key (h : signingKey key = none) : verify key payload text = true := by
  unfold verify
  rw [h]

/-- An envelope has a signature, and the header with it, exactly when the sender has a key that is not
empty, and a receiver with the same key takes it. A receiver with a key that is not empty takes one text
for a payload, the 44 characters that stand for the 32 octets of the keyed hash, and so nothing that is
not signed; one without a key takes everything. -/
theorem signature_exact (sender receiver : Option Octets) (payload : Octets) :
    (((ofPayload sender payload).signature.isSome = true ↔ ∃ k, sender = some k ∧ k ≠ []) ∧
      (ofPayload sender payload).headers.lookup "HashSHA256" = (ofPayload sender payload).signature ∧
      ∀ text, (∀ s, (ofPayload sender payload).signature = some s → text = s) →
        verify sender payload text = true) ∧
    (∀ k, receiver = some k → k ≠ [] →
      (∀ text, verify receiver payload text = true ↔ text = sign k payload) ∧
      (sign k payload).length = 44 ∧ (Hmac.mac k payload).length = 32 ∧
      Base64.decode? (sign k payload).toList = some (Hmac.mac k payload) ∧
      verify receiver payload "" = false) ∧
    ((∀ k, receiver = some k → k = []) → ∀ text, verify receiver payload text = true) := by
  refine ⟨⟨?_, lookup_signatureHeader _, fun text same => ?_⟩, fun k here nonempty => ?_, fun keyless text => ?_⟩
  · unfold ofPayload
    rw [Option.isSome_map, Option.isSome_iff_exists]
    exact exists_congr fun k => signingKey_eq_some_iff
  · cases keyed : signingKey sender with
    | none => exact verify_of_no_key keyed
    | some k =>
      have signed : (ofPayload sender payload).signature = some (sign k payload) := by
        unfold ofPayload
        rw [keyed, Option.map_some]
      exact (verify_iff keyed).2 (same _ signed)
  · have keyed := signingKey_eq_some_iff.2 ⟨here, nonempty⟩
    refine ⟨fun text => verify_iff keyed, length_sign k payload, Hmac.length_mac k payload, eq_sign_iff.1 rfl, ?_⟩
    rw [← Bool.not_eq_true, verify_iff keyed]
    intro unsigned
    have long := length_sign k payload
    rw [← unsigned] at long
    cases long
  · exact verify_of_no_key (signingKey_eq_none_iff.2 keyless)

/-- A sender without a key and a receiver with one: what is sent is not signed, and the receiver takes
nothing but the signature that it would have sent itself. -/
theorem signature_exact_unsigned :
    let key := Text.Utf8.encode "Jefe".toList
    let payload := Text.Utf8.encode "what do ya want for nothing?".toList
    (ofPayload none payload).headers.lookup "HashSHA256" = none ∧ key ≠ [] ∧
      (∀ text, verify (some key) payload text = true ↔ text = "W9zBRr9gdU5qBCQmCJV1x1oAPwidJzmDnexYuWTsOEM=") ∧
      verify (some key) payload "" = false := by
  intro key payload
  have known : sign key payload = "W9zBRr9gdU5qBCQmCJV1x1oAPwidJzmDnexYuWTsOEM=" := by decide +kernel
  have nonempty : key ≠ [] := by decide
  obtain ⟨⟨-, header, -⟩, keyed, -⟩ := signature_exact none (some key) payload
  obtain ⟨accepts, -, -, -, unsigned⟩ := keyed key rfl nonempty
  rw [known] at accepts
  exact ⟨header, nonempty, accepts, unsigned⟩

end Telemetry.Envelope
