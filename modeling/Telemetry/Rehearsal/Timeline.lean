/-
An agent on a clock that stands still while any task can do something, and then moves to the next
moment that a task or a request from outside waits for.
-/
import Telemetry.Rehearsal.Ensemble

namespace Telemetry.Rehearsal

/-- An agent whose tasks take turns, with what will be asked of it, in the order of time. -/
structure Timeline where
  turns : Turns Ensemble Agent.Task
  plan : List (Time × Agent.Request) := []

namespace Timeline

def agent (t : Timeline) : Agent := t.turns.state.agent

/-- Lets the agent run until it cannot go further. -/
def settle (s : AgentSettings) (t : Timeline) : Timeline :=
  { t with turns := t.turns.settle (Ensemble.rules s) }

/-- Lets a drain begin at once. -/
def beginDrain (s : AgentSettings) (number : Nat) (t : Turns Ensemble Agent.Task) :
    Turns Ensemble Agent.Task :=
  match t.state.drain? number with
  | some (d, _) =>
    let state := (t.state.step s (.drain number .finish)).getD t.state
    { t with state }.wake ((Ensemble.crew d).map (.drain number ·))
  | none => t

/-- Does what is asked for. A drain from outside begins at once; the signal sets all tasks going. -/
def request (s : AgentSettings) (t : Turns Ensemble Agent.Task) (r : Agent.Request) :
    Turns Ensemble Agent.Task :=
  let state := t.state.withAgent (t.state.agent.request s r)
  let news := { t with state }.wake (Ensemble.newcomers s t.state state)
  match r with
  | .cancel => news.stir (Ensemble.rules s)
  | .drain _ => beginDrain s t.state.agent.drains.length news
  | _ => news

/-- Does what is asked for up to now. -/
def arrive (s : AgentSettings) (t : Turns Ensemble Agent.Task) :
    List (Time × Agent.Request) → Timeline
  | [] => ⟨t, []⟩
  | (time, r) :: rest =>
    if time ≤ t.state.agent.now then arrive s (request s t r) rest else ⟨t, (time, r) :: rest⟩

/-- The next moment that anything waits for. -/
def next? (t : Timeline) : Option Time :=
  (t.agent.timers ++ (t.plan.head?.map (·.1)).toList).min?

/-- Moves the clock; alarms go off, and what is asked for at that moment is done. -/
def advance (s : AgentSettings) (time : Time) (t : Timeline) : Timeline :=
  let e := t.turns.state
  let state := { e with agent := e.agent.advance time }
  arrive s ({ t.turns with state }.wake (e.due time)) t.plan

/-- Runs until `done` holds, or nothing can happen, or the moment `limit` is over. -/
def run (s : AgentSettings) (done : Agent → Bool) (limit : Option Time) : Nat → Timeline → Timeline
  | 0, t => t
  | fuel + 1, t =>
    let t := t.settle s
    if done t.agent then t
    else
      let next := match t.next?, limit with
        | some time, some latest => if time ≤ latest then some time else none
        | next, _ => next
      match next with
      | some time => run s done limit fuel (t.advance s time)
      | none => match limit with
        | some latest => t.advance s latest
        | none => t

/-- An agent of which nothing has been seen yet, with what is asked for at the beginning done. The
signal is set off before that, or not. -/
def opening (s : AgentSettings) (a : Agent) (cancelled : Bool) (plan : List (Time × Agent.Request)) :
    Timeline :=
  let agent := { a with shared := { a.shared with cancelled } }
  arrive s { state := Ensemble.ofAgent agent, row := [.own] } plan

/-- Runs until `done` holds, or nothing can happen any more. What holds already is not waited for. -/
def runUntil (s : AgentSettings) (done : Agent → Bool) (t : Timeline) : Timeline :=
  if done t.agent then t else run s done none Turns.plenty t

/-- Runs for a while. -/
def runFor (s : AgentSettings) (span : Span) (t : Timeline) : Timeline :=
  run s (fun _ => false) (some (t.agent.now + span)) Turns.plenty t

/-- Whether a drain has returned. -/
def drainReturned (number : Nat) (a : Agent) : Bool :=
  a.drains[number]?.all (·.hasReturned)

end Timeline

end Telemetry.Rehearsal
