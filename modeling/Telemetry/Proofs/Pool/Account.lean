/-
What was settled, held against the journal and against a script of answers. A batch was posted as often
as its account says, by one worker, and again only after a failure that is worth another attempt
(`Settled.Account`); and when a script answers the posts, the account is a function of the batch, whoever
delivers it and whenever (`Settled.foretold`).
-/
import Telemetry.Proofs.Pool.Trail

namespace Telemetry.Pool

open Retry (Policy)

namespace Settled

/-- What the journal tells, the latest first, of a batch that a worker has settled. -/
structure Account (seat : Seat) (trail : Journal) (x : Settled) : Prop where
  attempts : trail.posts.map (·.attempt) = (List.range' 1 x.attempts).reverse
  seat : ∀ q ∈ trail.posts, q.seat = seat
  accepted : x.failure = none ↔
    ∃ q time, trail.head? = some (.ended q time .accepted) ∧ trail.posts.head? = some q
  repeated : ∀ q time finish, .ended q time finish ∈ trail.tail →
    ∃ f, finish = .failed f ∧ PostFailure.classify f = .retriable

/-- What a batch is settled with when a script answers its posts. -/
def foretold (policy : Policy) (script : Parcel → Nat → Except PostFailure Unit) (parcel : Parcel) : Settled :=
  let (attempts, result) := policy.verdict PostFailure.classify (script parcel)
  match result with
  | .ok _ => ⟨parcel, attempts, none⟩
  | .error f => ⟨parcel, attempts, some (.unsent f)⟩

variable {s : DeliverySettings} {seat : Seat} {x : Settled} {d : Sending} {trail : Journal}

/-- A delivery that ended with a post is told of by that post and the attempts before it. -/
theorem account_of_failed {envelope : Envelope} {n : Nat} {post : Post} {time : Time} {finish : Finish}
    {j : Journal} (failed : Sending.Failed s seat x.parcel envelope n j)
    (attempt : post.IsAttempt seat x.parcel envelope (n + 1)) (attempts : x.attempts = n + 1)
    (accepted : x.failure = none ↔ finish = .accepted) :
    x.Account seat (.ended post time finish :: .begun post :: j) := by
  obtain ⟨numbers, seats⟩ := failed.posts
  have posts : Journal.posts (.ended post time finish :: .begun post :: j) = post :: j.posts := by
    simp [Journal.posts]
  constructor
  · rw [posts, List.map_cons, numbers, attempt.attempt, attempts, List.range'_concat, List.reverse_concat]
    simp [Nat.add_comm]
  · rw [posts]
    intro q hq
    rcases List.mem_cons.1 hq with rfl | hq
    · exact attempt.seat
    · exact seats q hq
  · rw [accepted, posts]
    simp
  · intro q t f mem
    rcases List.mem_cons.1 mem with here | mem
    · cases here
    · exact failed.repeated mem

/-- What a worker has settled is what the journal tells. -/
theorem Closes.account (h : x.Closes d) (tale : d.Tale s seat x.parcel trail) : x.Account seat trail := by
  obtain ⟨parcel, attempts, failure⟩ := x
  rcases h with ⟨rfl, ends⟩ | ⟨f, rfl, rfl, kept, ends⟩
  · cases tale with
    | accepted failed attempt answers =>
      cases ends
      exact account_of_failed failed attempt rfl (by simp)
    | _ => cases ends
  · cases tale with
    | unpacked why =>
      cases ends
      exact ⟨rfl, by simp [Journal.posts], by simp, by simp⟩
    | refused failed attempt answers final =>
      cases ends
      exact account_of_failed failed attempt rfl (by simp)
    | exhausted failed attempt answers again last =>
      cases ends
      exact account_of_failed failed attempt rfl (by simp)
    | cancelled failed => cases ends; cases kept
    | abandoned failed attempt => cases ends; cases kept
    | _ => cases ends

/-- When a script answers the posts, what a batch is settled with is foretold by the script. -/
theorem Closes.eq_foretold {script : Parcel → Nat → Except PostFailure Unit} (h : x.Closes d)
    (tale : d.Tale s seat x.parcel trail) (follows : s.Follows script)
    (packs : ∀ b, ∃ envelope, s.pack b = .ok envelope) : x = foretold s.policy script x.parcel := by
  obtain ⟨parcel, attempts, failure⟩ := x
  obtain ⟨success, failed⟩ := tale.verdict follows
  unfold foretold
  rcases h with ⟨noFailure, ends⟩ | ⟨f, reason, same, kept, ends⟩
  · rw [success attempts ends]
    exact congrArg _ noFailure
  · cases f with
    | unsent f =>
      rw [failed f ends kept]
      exact congrArg₂ _ same reason
    | unpacked f =>
      obtain ⟨envelope, packed⟩ := packs parcel.batch
      cases tale with
      | unpacked why => rw [packed] at why; cases why
      | _ => cases ends

end Settled

end Telemetry.Pool
