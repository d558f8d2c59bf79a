/-
What can happen to an agent: its tasks take steps in any order, the clock moves on, and requests come
from outside. `Reaches` says that one state comes of another by events that are all allowed where
they happen; `Change` lists what one event does, so that an invariant is looked after once for each
kind of change and never by opening the steps again.
-/
import Telemetry.Agent.Basic

namespace Telemetry.Agent

open Pool (Drain Scene Worker)
open Stage (Pipeline Source)

/-- One thing that happens to an agent: a task takes a step, the clock moves, or something is asked
for from outside. -/
inductive Event where
  | work (task : Task)
  | wait (time : Time)
  | ask (request : Request)

/-- The agent after an event; none when the task can do nothing. -/
def after? (s : AgentSettings) (a : Agent) : Event → Option Agent
  | .work task => a.step s task
  | .wait time => some (a.advance time)
  | .ask request => some (a.request s request)

/-- `b` comes of `a` by events that are all allowed where they happen, in any order. -/
inductive Reaches (s : AgentSettings) (allowed : Agent → Event → Bool) (a : Agent) : Agent → Prop
  | refl : Reaches s allowed a a
  | next {b c : Agent} {e : Event} :
      Reaches s allowed a b → allowed b e = true → b.after? s e = some c → Reaches s allowed a c

/-- Any event is allowed at any time. -/
def anything (_ : Agent) (_ : Event) : Bool := true

section Reaches

variable {s : AgentSettings} {allowed : Agent → Event → Bool} {a b : Agent}

/-- What holds at first and is kept by every event holds ever after. -/
theorem Reaches.keeps (Inv : Agent → Prop) (h : Reaches s allowed a b) (first : Inv a)
    (kept : ∀ b e c, Inv b → allowed b e = true → b.after? s e = some c → Inv c) : Inv b := by
  induction h with
  | refl => exact first
  | next _ ok he ih => exact kept _ _ _ ih ok he

/-- The agent after some events, none when one of them is not allowed or not possible. -/
def follow? (s : AgentSettings) (allowed : Agent → Event → Bool) (a : Agent) : List Event → Option Agent
  | [] => some a
  | e :: es => if allowed a e then (a.after? s e).bind fun b => b.follow? s allowed es else none

theorem Reaches.follow? {c : Agent} (h : Reaches s allowed a b) {es : List Event}
    (hes : b.follow? s allowed es = some c) : Reaches s allowed a c := by
  induction es generalizing b with
  | nil => cases hes; exact h
  | cons e es ih =>
    simp only [Agent.follow?] at hes
    split at hes
    · obtain ⟨b', hb, hes⟩ := Option.bind_eq_some_iff.1 hes
      exact ih (h.next ‹_› hb) hes
    · cases hes

/-- Whether an event is a step of a task. -/
def Event.isStep : Event → Bool
  | .work _ => true
  | _ => false

/-- What every step of a task uses up, and nothing else brings back, is enough for the steps of a run. -/
theorem steps_le_of_follow? (Inv : Agent → Prop) (left : Agent → Nat)
    (work : ∀ b task c, Inv b → b.step s task = some c → Inv c ∧ left c < left b)
    (rest : ∀ b e c, Inv b → allowed b e = true → e.isStep = false → b.after? s e = some c →
      Inv c ∧ left c ≤ left b)
    {es : List Event} (first : Inv a) (run : a.follow? s allowed es = some b) :
    Inv b ∧ es.countP Event.isStep + left b ≤ left a := by
  induction es generalizing a with
  | nil =>
    cases run
    exact ⟨first, by simp⟩
  | cons e es ih =>
    simp only [Agent.follow?] at run
    split at run
    · rename_i ok
      obtain ⟨c, after, further⟩ := Option.bind_eq_some_iff.1 run
      cases step : e.isStep with
      | false =>
        obtain ⟨kept, less⟩ := rest a e c first ok step after
        obtain ⟨last, bound⟩ := ih kept further
        rw [List.countP_cons_of_neg (by simp [step])]
        exact ⟨last, Nat.le_trans bound less⟩
      | true =>
        cases e with
        | work task =>
          obtain ⟨kept, less⟩ := work a task c first after
          obtain ⟨last, bound⟩ := ih kept further
          rw [List.countP_cons_of_pos rfl]
          exact ⟨last, by omega⟩
        | wait time => cases step
        | ask request => cases step
    · cases run

/-- Events that can be followed to an agent of some kind lead there. -/
theorem exists_reaches (s : AgentSettings) (allowed : Agent → Event → Bool) (a : Agent) (es : List Event)
    (p : Agent → Bool) (h : (a.follow? s allowed es).any p = true) :
    ∃ b, Reaches s allowed a b ∧ p b = true := by
  obtain ⟨b, hb, hp⟩ := (Option.any_eq_true _ _).1 h
  exact ⟨b, Reaches.refl.follow? hb, hp⟩

end Reaches

/-- An agent with one worker, batches of one record, and posts that are never answered. -/
def unanswered : AgentSettings where
  batchSize := 1
  workers := 1
  delivery :=
    { pack := fun _ => .ok ⟨[], none⟩, policy := ⟨0, 0, 0⟩
      transport := fun _ _ => ⟨none, .result (.ok ())⟩ }

/-- Whether an event may read a snapshot or hand the open generators on. -/
def Event.collects : Event → Bool
  | .work .own => true
  | .ask .poll => true
  | .ask .report => true
  | _ => false

/-- What the agent's own task does in a step. -/
inductive OwnMove (s : AgentSettings) (a : Agent) : Agent → Prop
  | close {poll report : Ticker} (course : a.course = .running poll report)
      (signal : a.shared.cancelled = true) : OwnMove s a { a with course := .closing }
  | poll {poll report : Ticker} (course : a.course = .running poll report)
      (signal : a.shared.cancelled = false) (due : poll.isDue a.now = true) :
      OwnMove s a { a.poll with course := .running (poll.tick a.now) report }
  | pass {poll report : Ticker} (course : a.course = .running poll report)
      (signal : a.shared.cancelled = false) (early : poll.isDue a.now = false)
      (due : report.isDue a.now = true) (nothing : a.pending = []) :
      OwnMove s a { a with course := .running poll (report.tick a.now) }
  | report {poll report : Ticker} (course : a.course = .running poll report)
      (signal : a.shared.cancelled = false) (early : poll.isDue a.now = false)
      (due : report.isDue a.now = true) (nonempty : a.pending ≠ []) :
      OwnMove s a { a.report s with course := .running poll (report.tick a.now) }
  | stop (course : a.course = .closing) (quiet : a.isQuiet = true) :
      OwnMove s a { a with course := .stopped a.now }

/-- What an event does to an agent, whoever brings it about. -/
inductive Change (s : AgentSettings) (a : Agent) : Event → Agent → Prop
  | polled {e : Event} (collects : e.collects = true) (course : Course) :
      Change s a e { a.poll with course }
  | reported {e : Event} (collects : e.collects = true) (course : Course) :
      Change s a e { a.report s with course }
  | turned {e : Event} (collects : e.collects = true) (course : Course) : Change s a e { a with course }
  | waited (time : Time) : Change s a (.wait time) (a.advance time)
  | cancelled : Change s a (.ask .cancel) (a.request s .cancel)
  | discarded : Change s a (.ask .discard) (a.request s .discard)
  | opened (stages : Pipeline) : Change s a (.ask (.drain stages)) (a.startDrain s stages)
  | fed {i : Nat} {old new : Source} (found : a.pending[i]? = some old)
      (step : old.step a.shared.cancelled = some new) :
      Change s a (.work (.feed i)) { a with pending := a.pending.set i new }
  | staged {n : Nat} {d : Drain} {t : Pipeline.Task} {stages : Pipeline}
      (found : a.drains[n]? = some d)
      (step : d.stages.step a.shared.cancelled s.batchSize t = some stages) :
      Change s a (.work (.drain n (.stage t))) { a with drains := a.drains.set n { d with stages } }
  | worked {n i : Nat} {d : Drain} {w : Worker} {next : Scene}
      (found : a.drains[n]? = some d) (worker : d.workers[i]? = some w)
      (step : (d.scene a.shared w).step s.delivery ⟨n, i⟩ = some next) :
      Change s a (.work (.drain n (.work i)))
        { a with shared := next.shared, drains := a.drains.set n (d.withScene i next) }
  | returned {n : Nat} {d : Drain} (found : a.drains[n]? = some d)
      (first : d.returned = none) (ends : d.workers.all (·.isOver) = true) :
      Change s a (.work (.drain n .finish)) { a with drains := a.drains.set n { d with
        returned := some a.now, stages := { d.stages with out := d.stages.out.drop } } }

variable {s : AgentSettings} {a b : Agent}

theorem ownMove_of_ownStep (h : a.ownStep s = some b) : OwnMove s a b := by
  unfold ownStep at h
  split at h
  · cases h
  case h_2 poll report course =>
    split at h
    · cases h
      exact .close course ‹_›
    · rename_i signal
      rw [Bool.not_eq_true] at signal
      split at h
      · cases h
        exact .poll course signal ‹_›
      · rename_i early
        rw [Bool.not_eq_true] at early
        split at h
        · rename_i due
          dsimp only at h
          split at h
          · rename_i nothing
            cases h
            exact .pass course signal early due (List.isEmpty_iff.1 nothing)
          · rename_i nonempty
            cases h
            exact .report course signal early due fun h => nonempty (List.isEmpty_iff.2 h)
        · cases h
  case h_3 course =>
    split at h
    · cases h
      exact .stop course ‹_›
    · cases h
  · cases h

/-- What the own task does is a poll, a report, or a turn of its course alone. -/
theorem OwnMove.change (h : OwnMove s a b) : Change s a (.work .own) b := by
  cases h with
  | close course signal => exact .turned rfl _
  | poll course signal due => exact .polled rfl _
  | pass course signal early due nothing => exact .turned rfl _
  | report course signal early due nonempty => exact .reported rfl _
  | stop course quiet => exact .turned rfl _

theorem change_of_drain {n : Nat} {d d' : Drain} {shared : Pool.Shared}
    {task : Drain.Task} (found : a.drains[n]? = some d)
    (h : d.step s.delivery s.batchSize n a.shared task = some (shared, d')) :
    Change s a (.work (.drain n task)) { a with shared, drains := a.drains.set n d' } := by
  cases task with
  | stage t =>
    obtain ⟨stages, hs, heq⟩ := Option.map_eq_some_iff.1 h
    cases heq
    exact .staged found hs
  | work i =>
    obtain ⟨w, hw, h⟩ := Option.bind_eq_some_iff.1 h
    obtain ⟨next, hn, heq⟩ := Option.bind_eq_some_iff.1 h
    cases heq
    exact .worked found hw hn
  | finish =>
    simp only [Drain.step] at h
    split at h
    · rename_i hg
      cases h
      simp only [Bool.and_eq_true, Option.isNone_iff_eq_none] at hg
      exact .returned found hg.1 hg.2
    · cases h

/-- Every event is one of the changes. -/
theorem change_of_after {e : Event} (h : a.after? s e = some b) : Change s a e b := by
  cases e with
  | wait time => cases h; exact .waited time
  | ask request =>
    cases h
    cases request with
    | cancel => exact .cancelled
    | poll => exact .polled rfl a.course
    | report => exact .reported rfl a.course
    | discard => exact .discarded
    | drain stages => exact .opened stages
  | work task =>
    cases task with
    | own => exact (ownMove_of_ownStep h).change
    | feed i =>
      obtain ⟨old, ho, h⟩ := Option.bind_eq_some_iff.1 h
      obtain ⟨new, hn, heq⟩ := Option.bind_eq_some_iff.1 h
      cases heq
      exact .fed ho hn
    | drain n task =>
      obtain ⟨d, hd, h⟩ := Option.bind_eq_some_iff.1 h
      obtain ⟨⟨shared, d'⟩, hs, heq⟩ := Option.bind_eq_some_iff.1 h
      cases heq
      exact change_of_drain hd hs

/-! ## Agents that cannot go on -/

/-- A drain of an agent that cannot go on cannot go on. -/
theorem drain_still (stuck : ∀ task, a.step s task = none) {n : Nat} {d : Drain}
    (found : a.drains[n]? = some d) (task : Drain.Task) :
    d.step s.delivery s.batchSize n a.shared task = none := by
  have still := stuck (.drain n task)
  cases moves : d.step s.delivery s.batchSize n a.shared task with
  | none => rfl
  | some after => simp [step, found, moves] at still

end Telemetry.Agent
