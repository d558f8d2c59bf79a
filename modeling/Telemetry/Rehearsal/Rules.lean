/-
A collector that answers by rules: a post takes the first rule that speaks of its batch and is not used
up. Where no rule does, the post is accepted at once.
-/
import Telemetry.Delivery.Post

namespace Telemetry.Rehearsal

/-- How a rule has a post end. -/
inductive Verdict where
  | accept
  | unreachable (reason : String)
  | refuse (status : Nat) (body : String)
  | hang
  | crash
deriving DecidableEq, Repr

/-- A rule: the record name that a batch has to hold, how often it can be used, and what it does. -/
structure Rule where
  name : Option String := none
  times : Option Nat := none
  delay : Span := 0
  verdict : Verdict := .accept
deriving DecidableEq, Repr

namespace Rule

/-- Whether a rule speaks of a batch and is not used up. -/
def applies (r : Rule) (b : Batch) : Bool :=
  r.times != some 0 && r.name.all fun name => b.any (·.name == name)

/-- The rule for a batch, and the rules with one use taken off it. -/
def use (b : Batch) : List Rule → Option Rule × List Rule
  | [] => (none, [])
  | r :: rs =>
    if r.applies b then (some r, { r with times := r.times.map (· - 1) } :: rs)
    else
      let (used, rs) := use b rs
      (used, r :: rs)

/-- The reply of a rule. -/
def reply (r : Rule) : PostReply :=
  let delay := some r.delay.waited
  match r.verdict with
  | .accept => ⟨delay, .result (.ok ())⟩
  | .unreachable reason => ⟨delay, .result (.error (.unreachable reason))⟩
  | .refuse status body => ⟨delay, .result (.error (.refused status body))⟩
  | .hang => ⟨none, .crash⟩
  | .crash => ⟨delay, .crash⟩

/-- The rules that are left after some posts, the latest of which comes first. -/
def remaining (rules : List Rule) (posts : List Post) : List Rule :=
  posts.foldr (fun p rules => (use p.parcel.batch rules).2) rules

/-- The collector that goes by some rules. -/
def transport (rules : List Rule) : Transport := fun posts post =>
  match (use post.parcel.batch (remaining rules posts)).1 with
  | some r => r.reply
  | none => ⟨some 0, .result (.ok ())⟩

end Rule

end Telemetry.Rehearsal
