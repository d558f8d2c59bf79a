/-
How the delivery of a batch fails: while it is packed, or because the collector could not be reached
or refused it. Only a collector that gave no answer at all is worth another attempt.
-/
import Telemetry.Retry.Policy
import Telemetry.Text.Placed

namespace Telemetry

open Number (natText)

/-- Failure of one post. -/
inductive PostFailure where
  | unreachable (reason : String)
  | refused (status : Nat) (body : String)
deriving DecidableEq, Repr

namespace PostFailure

def message : PostFailure → String
  | unreachable reason => "Delivery: transport error: " ++ reason
  | refused status body =>
    "Delivery: collector responded with status=" ++ natText status ++ ", body=" ++ body

/-- An answer that refuses a batch is final. -/
def classify : PostFailure → Retry.Class
  | unreachable _ => .retriable
  | refused _ _ => .nonRetriable

/-- The messages of a failure and of what is behind it. -/
def chain (f : PostFailure) : List String :=
  match f with
  | unreachable reason => [f.message, reason]
  | refused _ _ => [f.message]

end PostFailure

/-- Failure to pack a batch, before anything is sent. -/
inductive PackFailure where
  | encoding (remark : Text.Placed)
  | compression (reason : String)
  | signing (reason : String)
deriving DecidableEq, Repr

/-- Failure to deliver a batch. -/
inductive DeliveryFailure where
  | unpacked (f : PackFailure)
  | unsent (f : Retry.Failure PostFailure)
deriving DecidableEq, Repr

namespace DeliveryFailure

def message : DeliveryFailure → String
  | unpacked (.encoding remark) => "Delivery: batch encoding failed: " ++ remark.message
  | unpacked (.compression reason) => "Delivery: compression failed: " ++ reason
  | unpacked (.signing reason) => "Delivery: signing failed: " ++ reason
  | unsent f => f.message PostFailure.message

/-- The messages of what is behind a failure, the nearest first. -/
def causes : DeliveryFailure → List String
  | unpacked (.encoding remark) => [remark.message]
  | unpacked (.compression reason) => [reason]
  | unpacked (.signing _) => []
  | unsent f => f.source?.elim [] PostFailure.chain

/-- Posts that were begun. A batch that could not be packed was never posted. -/
def attempts : DeliveryFailure → Nat
  | unpacked _ => 0
  | unsent f => f.attempts

def isCancelled : DeliveryFailure → Bool
  | unpacked _ => false
  | unsent f => f.isCancelled

end DeliveryFailure

end Telemetry
