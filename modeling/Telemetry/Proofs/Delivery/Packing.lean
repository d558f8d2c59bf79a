/-
What is packed for a batch. An envelope holds the text of the batch, compressed, and the signature of that
text if there is a key (`Packing.pack_eq_ok`), whatever tools did it, as long as each of them does what it is
for (`Packing.Faithful`); and when one of them fails, that is the failure of the packing
(`Packing.Fails.pack_eq`).
-/
import Telemetry.Delivery.Packing
import Telemetry.Proofs.Envelope.Gzip
import Telemetry.Proofs.Envelope.Signature

namespace Telemetry.Packing

open Text.Utf8 (Octets)

/-- Tools that do what they are for when they do not fail: batches are written in their wire form, the hash
is the keyed one, and what was compressed can be unzipped. -/
structure Faithful (t : Packing) (unzip : Octets → Option Octets) : Prop where
  write : ∀ b payload, t.write b = .ok payload → payload = Wire.encodeBatch b
  mac : ∀ key payload code, t.mac key payload = .ok code → code = Envelope.Hmac.mac key payload
  compress : ∀ payload body, t.compress payload = .ok body → unzip body = some payload

/-- A tool that fails, after those before it did not. -/
inductive Fails (t : Packing) (key : Option Octets) (b : Batch) : PackFailure → Prop
  | encoding {remark : Text.Placed} (fails : t.write b = .error remark) : Fails t key b (.encoding remark)
  | signing {payload k : Octets} {reason : String} (written : t.write b = .ok payload)
      (keyed : Envelope.signingKey key = some k) (fails : t.mac k payload = .error reason) :
      Fails t key b (.signing reason)
  | compression {payload : Octets} {signature : Option String} {reason : String}
      (written : t.write b = .ok payload) (signed : t.signature key payload = .ok signature)
      (fails : t.compress payload = .error reason) : Fails t key b (.compression reason)

variable {t : Packing} {unzip : Octets → Option Octets} {key : Option Octets} {b : Batch} {f : PackFailure}
  {envelope : Envelope}

theorem pack_standard (key : Option Octets) (b : Batch) : standard.pack key b = Envelope.ofBatch key b := by
  unfold pack build signature Envelope.ofBatch Envelope.ofPayload
  cases Envelope.signingKey key <;> rfl

theorem standard_faithful : standard.Faithful Envelope.Gzip.unpack? where
  write _ _ written := (Except.ok.inj written).symm
  mac _ _ _ hashed := (Except.ok.inj hashed).symm
  compress payload _ packed := Except.ok.inj packed ▸ Envelope.Gzip.unpack?_pack payload

/-- What fails in the packing is what the packing fails with. -/
theorem Fails.pack_eq (h : t.Fails key b f) : t.pack key b = .error f := by
  unfold pack
  cases h with
  | encoding fails => rw [fails]
  | signing written keyed fails => simp only [written, build, signature, keyed, sign, fails, Except.map]
  | compression written signed fails => simp only [written, build, signed, fails]

/-- An envelope with the text of a batch. -/
structure Holds (unzip : Octets → Option Octets) (key : Option Octets) (b : Batch) (envelope : Envelope) : Prop where
  body : unzip envelope.body = some (Wire.encodeBatch b)
  signature : envelope.signature = (Envelope.signingKey key).map (Envelope.sign · (Wire.encodeBatch b))
  signed : envelope.signature.isSome = true ↔ ∃ k, key = some k ∧ k ≠ []

theorem signature_eq_ok (h : t.Faithful unzip) {payload : Octets} {signature : Option String}
    (signed : t.signature key payload = .ok signature) :
    signature = (Envelope.signingKey key).map (Envelope.sign · payload) := by
  unfold Packing.signature at signed
  cases keyed : Envelope.signingKey key with
  | none =>
    rw [keyed] at signed
    exact (Except.ok.inj signed).symm
  | some k =>
    simp only [keyed, sign] at signed
    cases hashed : t.mac k payload with
    | error reason =>
      rw [hashed] at signed
      cases signed
    | ok code =>
      obtain rfl := h.mac k payload code hashed
      rw [hashed] at signed
      exact (Except.ok.inj signed).symm

/-- Tools that do what they are for make an envelope with the text of the batch. -/
theorem pack_eq_ok (h : t.Faithful unzip) (packed : t.pack key b = .ok envelope) : Holds unzip key b envelope := by
  unfold pack at packed
  cases written : t.write b with
  | error remark =>
    rw [written] at packed
    cases packed
  | ok payload =>
    -- the text that was written is both signed and compressed
    obtain rfl := h.write b payload written
    simp only [written, build] at packed
    cases signed : t.signature key (Wire.encodeBatch b) with
    | error f =>
      rw [signed] at packed
      cases packed
    | ok signature =>
      simp only [signed] at packed
      cases compressed : t.compress (Wire.encodeBatch b) with
      | error reason =>
        rw [compressed] at packed
        cases packed
      | ok body =>
        rw [compressed] at packed
        cases packed
        have sealed := signature_eq_ok h signed
        refine ⟨h.compress _ body compressed, sealed, ?_⟩
        rw [sealed, Option.isSome_map, Option.isSome_iff_exists]
        exact exists_congr fun k => Envelope.signingKey_eq_some_iff

end Telemetry.Packing
