/-
Whole performances of an agent: drains on one pool, an agent driven by hand, and an agent that goes by
its timers.
-/
import Telemetry.Rehearsal.Timeline

namespace Telemetry.Rehearsal

open Stage (Pipeline Source)

/-- A drain that is started at some moment, on batches that are there already. -/
structure PlannedDrain where
  start : Time
  batches : List Batch
  isOpen : Bool := false

/-- The request to cancel, where there is one. A timer is set for it at the beginning. -/
def cancelPlan (cancelAt : Option Time) : List (Time × Agent.Request) :=
  (cancelAt.map fun t => (Span.waited t, .cancel)).toList

/-- An agent without collectors. -/
def bareAgent (s : AgentSettings) : Agent := Agent.initial s.workers ⟨[], []⟩

/-- Runs some drains on one pool. Gives the agent at the end and for each drain its number. -/
def poolShow (s : AgentSettings) (cancelled : Bool) (cancelAt : Option Time)
    (drains : List PlannedDrain) : Agent × List Nat :=
  let ordered := (drains.zipIdx).mergeSort fun a b => a.1.start ≤ b.1.start
  let requests := ordered.map fun (d, _) =>
    (Span.waited d.start, Agent.Request.drain (Pipeline.ofBatches d.batches (!d.isOpen)))
  let plan := (cancelPlan cancelAt ++ requests).mergeSort fun a b => a.1 ≤ b.1
  let t := Timeline.opening s (bareAgent s) cancelled plan
  let t := t.runUntil s fun a => a.drains.length == drains.length && a.isQuiet
  (t.agent, (List.range drains.length).map fun i => ordered.findIdx (·.2 == i))

/-- Sends the snapshots of some generators through one drain. -/
def flushShow (s : AgentSettings) (cancelled : Bool) (cancelAt : Option Time)
    (streams : List Snapshot) : Agent :=
  let plan := (0, Agent.Request.drain (Pipeline.ofSources (streams.map Source.ofSnapshot)))
  let t := Timeline.opening s (bareAgent s) cancelled (plan :: cancelPlan cancelAt)
  (t.runUntil s (·.isQuiet)).agent

/-- Runs an agent by its timers until it is done. -/
def agentShow (s : AgentSettings) (cancelled : Bool) (cancelAt : Option Time) (a : Agent) : Agent :=
  let t := Timeline.opening s a cancelled (cancelPlan cancelAt)
  (t.runUntil s fun a => match a.course with
    | .stopped _ => true
    | _ => false).agent

/-- A step of an agent driven by hand. -/
inductive Cue where
  | poll
  | cancel
  | discard
  | start
  | flush
  | join (flush : Nat)
  | advance (span : Span)
deriving DecidableEq, Repr

/-- An agent driven by hand: the drains that were started in the background and not waited for. -/
structure Stage where
  timeline : Timeline
  flushes : List Nat := []
  joined : List Nat := []

namespace Stage

/-- Asks for something now. -/
def request (s : AgentSettings) (st : Stage) (r : Agent.Request) : Stage :=
  let turns := Timeline.request s st.timeline.turns r
  { st with timeline := { st.timeline with turns } }

/-- Waits for a drain; gives its totals. -/
def await (s : AgentSettings) (st : Stage) (number : Nat) : Option Pool.Summary × Stage :=
  let t := st.timeline.runUntil s (Timeline.drainReturned number)
  (t.agent.drains[number]?.map (·.summary), { st with timeline := t })

/-- Does a step; gives the totals that it tells. -/
def act (s : AgentSettings) (st : Stage) : Cue → Option Pool.Summary × Stage
  | .poll => (none, st.request s .poll)
  | .cancel => (none, st.request s .cancel)
  | .discard => (none, st.request s .discard)
  | .start =>
    (none, { st.request s .report with flushes := st.flushes ++ [st.timeline.agent.drains.length] })
  | .flush =>
    let number := st.timeline.agent.drains.length
    let t := (st.request s .report).timeline
    { st with timeline := { t with turns := Timeline.beginDrain s number t.turns } }.await s number
  | .join flush =>
    match st.flushes[flush]? with
    | none => (none, st)
    | some number =>
      if flush ∈ st.joined then (none, st)
      else { st with joined := flush :: st.joined }.await s number
  | .advance span => (none, { st with timeline := st.timeline.runFor s span.waited })

end Stage

end Telemetry.Rehearsal
