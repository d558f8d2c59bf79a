/-
What is known of a batch when its delivery is over, and the totals of a report.
-/
import Telemetry.Delivery.Failure
import Telemetry.Delivery.Post

namespace Telemetry.Pool

/-- What came of a batch that was not given up. -/
structure Settled where
  parcel : Parcel
  attempts : Nat
  failure : Option DeliveryFailure
deriving DecidableEq, Repr

/-- What a worker tells of a batch. -/
structure Outcome where
  worker : Nat
  size : Nat
  attempts : Nat
  error : Option String
deriving DecidableEq, Repr

namespace Outcome

def ofSettled (worker : Nat) (s : Settled) : Outcome where
  worker := worker
  size := s.parcel.batch.length
  attempts := s.attempts
  error := s.failure.map (·.message)

def isSuccess (o : Outcome) : Bool := o.error.isNone

end Outcome

/-- The totals of a report. -/
structure Summary where
  batches : Nat
  delivered : Nat
  failed : Nat
  records : Nat
deriving DecidableEq, Repr

/-- The totals of some outcomes. -/
def Summary.ofOutcomes (os : List Outcome) : Summary where
  batches := os.length
  delivered := os.countP (·.isSuccess)
  failed := os.countP (!·.isSuccess)
  records := os.foldr (fun o n => o.size + n) 0

end Telemetry.Pool
