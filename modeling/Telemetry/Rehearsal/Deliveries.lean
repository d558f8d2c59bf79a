/-
Deliveries one after the other, on a clock of their own.
-/
import Telemetry.Delivery.Sending
import Telemetry.Retry.Drive

namespace Telemetry.Rehearsal

/-- A delivery on its own, with what has been written down so far. -/
structure LoneDelivery where
  setting : Retry.Setting
  journal : Journal := []
  sending : Sending

namespace LoneDelivery

/-- One step: what the delivery does, or the move of the clock. -/
def step (s : DeliverySettings) (parcel : Parcel) (d : LoneDelivery) : Option LoneDelivery :=
  let now := d.setting.now
  match d.sending.result? with
  | some _ => none
  | none =>
    match d.sending.step s now d.setting.cancelled d.journal ⟨0, 0⟩ parcel with
    | some (sending, entries) => some { d with sending, journal := entries ++ d.journal }
    | none => (d.setting.next? d.sending.timer?).map fun setting => { d with setting }

/-- Steps until nothing can happen, at most `fuel` of them. -/
def run (s : DeliverySettings) (parcel : Parcel) : Nat → LoneDelivery → LoneDelivery
  | 0, d => d
  | fuel + 1, d => match step s parcel d with
    | none => d
    | some d => run s parcel fuel d

/-- Delivers some batches; tells what came of each and when. -/
def deliverAll (s : DeliverySettings) (setting : Retry.Setting) (journal : Journal) (number : Nat) :
    List Batch → List (Option Sending.Result × Time) × Journal
  | [] => ([], journal)
  | b :: bs =>
    let d := run s ⟨number, b⟩ (Retry.Drive.enough s.policy)
      { setting, journal, sending := Sending.ofBatch s b }
    let (results, journal) := deliverAll s d.setting d.journal (number + 1) bs
    ((d.sending.result?, d.setting.now) :: results, journal)

end LoneDelivery

end Telemetry.Rehearsal
