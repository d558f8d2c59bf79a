/-
A worker of a drain. It receives one batch at a time while no other worker of its drain does, waits
for a permit, and delivers the batch with the permit held throughout. It ends when no batch will come
any more, and at the cancellation signal wherever it waits.
-/
import Telemetry.Channel
import Telemetry.Delivery.Sending
import Telemetry.Pool.Outcome
import Telemetry.Pool.Permits

namespace Telemetry.Pool

/-- Where a worker stands. -/
inductive Phase where
  | seeking
  | listening
  | carrying (parcel : Parcel)
  | queueing (parcel : Parcel)
  | delivering (parcel : Parcel) (sending : Sending)
  | ended
  | crashed

/-- A worker with what it has settled, the latest first. -/
structure Worker where
  phase : Phase := .seeking
  settled : List Settled := []

namespace Worker

/-- Whether a worker waits for the next batch, with the others kept out. -/
def isListening (w : Worker) : Bool := match w.phase with
  | .listening => true
  | _ => false

/-- Whether a worker has come to its end, in one way or the other. -/
def isOver (w : Worker) : Bool := match w.phase with
  | .ended => true
  | .crashed => true
  | _ => false

/-- Whether a worker holds a permit. -/
def isDelivering (w : Worker) : Bool := match w.phase with
  | .delivering _ _ => true
  | _ => false

/-- What a worker leaves; one that died leaves nothing. -/
def legacy (w : Worker) : List Settled := match w.phase with
  | .crashed => []
  | _ => w.settled.reverse

end Worker

/-- What the workers of all drains share. -/
structure Shared where
  now : Time := 0
  cancelled : Bool := false
  permits : Permits
  journal : Journal := []

/-- What the workers of a drain share: the batches, those received so far, and whether one of them is
listening. -/
structure Inbox where
  batches : Channel Batch
  received : List Batch := []
  busy : Bool := false

/-- What a step of a worker may change. -/
structure Scene where
  shared : Shared
  inbox : Inbox
  worker : Worker

namespace Scene

def withPhase (s : Scene) (phase : Phase) : Scene := { s with worker := { s.worker with phase } }

def withPermits (s : Scene) (permits : Permits) : Scene :=
  { s with shared := { s.shared with permits } }

/-- Starts to deliver, with a permit held. -/
def deliver (settings : DeliverySettings) (s : Scene) (parcel : Parcel) : Scene :=
  s.withPhase (.delivering parcel (Sending.ofBatch settings parcel.batch))

/-- Gives the permit back and does what follows on a delivery: a batch that was not given up is
settled. -/
def conclude (s : Scene) (parcel : Parcel) (result : Sending.Result) : Scene :=
  let s := s.withPermits s.shared.permits.release
  let settle (attempts : Nat) (failure : Option DeliveryFailure) : Scene :=
    { s with worker := { phase := .seeking, settled := ⟨parcel, attempts, failure⟩ :: s.worker.settled } }
  match result with
  | .delivered n => settle n none
  | .failed f => if f.isCancelled then s.withPhase .ended else settle f.attempts (some f)
  | .crashed => s.withPhase .crashed

/-- A step of a worker. -/
def step (settings : DeliverySettings) (seat : Seat) (s : Scene) : Option Scene :=
  let cancelled := s.shared.cancelled
  match s.worker.phase with
  | .seeking =>
    if cancelled then some (s.withPhase .ended)
    else if s.inbox.busy then none
    else some { s.withPhase .listening with inbox := { s.inbox with busy := true } }
  | .listening =>
    let free : Inbox := { s.inbox with busy := false }
    if cancelled then some { s.withPhase .ended with inbox := free }
    else match s.inbox.batches.receive with
      | (.item b, batches) =>
        let inbox : Inbox := { batches, received := s.inbox.received ++ [b], busy := false }
        some { s.withPhase (.carrying ⟨s.inbox.received.length, b⟩) with inbox }
      | (.finished, _) => some { s.withPhase .ended with inbox := free }
      | (.nothing, _) => none
  | .carrying parcel =>
    if cancelled then some (s.withPhase .ended)
    else match s.shared.permits.take? with
      | some permits => some ((s.withPermits permits).deliver settings parcel)
      | none => some ((s.withPermits (s.shared.permits.enqueue seat)).withPhase (.queueing parcel))
  | .queueing parcel =>
    if cancelled then some ((s.withPermits (s.shared.permits.withdraw seat)).withPhase .ended)
    else (s.shared.permits.collect? seat).map fun permits =>
      (s.withPermits permits).deliver settings parcel
  | .delivering parcel sending =>
    match sending.result? with
    | some result => some (s.conclude parcel result)
    | none =>
      (sending.step settings s.shared.now cancelled s.shared.journal seat parcel).map fun (next, entries) =>
        { s.withPhase (.delivering parcel next) with
          shared := { s.shared with journal := entries ++ s.shared.journal } }
  | .ended => none
  | .crashed => none

end Scene

end Telemetry.Pool
