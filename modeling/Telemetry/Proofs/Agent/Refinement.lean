/-
A pool delivers as one worker does, batch after batch. Its workers take batches from one queue, wait for
permits with a batch in hand and keep what they have settled to themselves; yet when a script answers
the posts, every drain comes to its end, and each batch has been settled with what the script foretells
of it, by one worker (`pool_refines_sequential`). So the outcomes are the same for every number of
workers and in every order of their steps.
-/
import Mathlib.Data.List.MinMax
import Telemetry.Proofs.Agent.Progress
import Telemetry.Proofs.Agent.Trail
import Telemetry.Proofs.Pool.Account
import Telemetry.Proofs.Pool.Backlog

namespace Telemetry

open Pool (Drain Lawful Outcome Settled Worker)
open Stage (Pipeline)

theorem DeliverySettings.Follows.works {s : DeliverySettings} {key : Option Text.Utf8.Octets}
    {script : Parcel → Nat → Except PostFailure Unit} (follows : s.Follows script)
    (packs : s.pack = Envelope.ofBatch key) (pauses : s.policy.fits = true) : s.Works := by
  refine ⟨fun b => ?_, fun seen post => ?_, pauses⟩
  · rw [packs]
    exact ⟨_, rfl⟩
  · obtain ⟨delay, reply⟩ := follows seen post
    exact ⟨_, by rw [reply]⟩

theorem DeliverySettings.Follows.answered {s : DeliverySettings}
    {script : Parcel → Nat → Except PostFailure Unit} (follows : s.Follows script) : s.Answered := by
  intro seen post
  obtain ⟨delay, reply⟩ := follows seen post
  rw [reply]
  rfl

namespace Pool

/-- What an outcome tells apart from the worker. -/
def Outcome.fate (o : Outcome) : Nat × Nat × Option String := (o.size, o.attempts, o.error)

/-- What is told of a batch that was settled, apart from the worker. -/
def Settled.fate (x : Settled) : Nat × Nat × Option String :=
  (x.parcel.batch.length, x.attempts, x.failure.map (·.message))

/-- What a drain has done that delivered its batches as one worker would: each batch was settled with
what the script foretells, by the one worker to which it was handed, and the journal bears it out. -/
structure Drain.Refines (workers : Nat) (policy : Retry.Policy)
    (script : Parcel → Nat → Except PostFailure Unit) (batches : List Batch) (number : Nat)
    (journal : Journal) (d : Drain) : Prop where
  settled : d.settled.Perm ((batches.mapIdx Parcel.mk).map (Settled.foretold policy script))
  outcomes : (d.outcomes.map Outcome.fate).Perm
    ((batches.mapIdx Parcel.mk).map fun parcel => (Settled.foretold policy script parcel).fate)
  handed : ∀ parcel ∈ batches.mapIdx Parcel.mk,
    ∃! i : Nat, ∃ w : Worker, d.workers[i]? = some w ∧ parcel ∈ w.legacy.map (·.parcel)
  accounts : ∀ (i : Nat) (w : Worker), d.workers[i]? = some w →
    ∀ x ∈ w.legacy, x.Account ⟨number, i⟩ (journal.trail number x.parcel)
  staff : ∀ o ∈ d.outcomes, o.worker < effectiveWorkers workers

theorem Drain.worker_lt_of_mem_outcomes {d : Drain} {o : Outcome} (mem : o ∈ d.outcomes) :
    o.worker < d.workers.length := by
  obtain ⟨os, hos, mem⟩ := List.mem_flatten.1 mem
  obtain ⟨i, hi, rfl⟩ := List.mem_mapIdx.1 hos
  obtain ⟨x, -, rfl⟩ := List.mem_map.1 mem
  exact hi

namespace Drain.Serves

variable {workers number : Nat} {s : DeliverySettings} {batches : List Batch} {journal : Journal} {d : Drain}

theorem mem_settled (h : d.Serves workers batches s.policy number journal)
    (ends : ∀ w ∈ d.workers, w.isOver = true) {w : Worker} (hw : w ∈ d.workers) {x : Settled}
    (mem : x ∈ w.legacy) : x ∈ w.settled := by
  rw [Worker.legacy_of_ended (h.tended.phase_of_isOver hw (ends w hw))] at mem
  exact List.mem_reverse.1 mem

/-- In the end each batch has been settled, with what the script foretells. -/
theorem settled_foretold {script : Parcel → Nat → Except PostFailure Unit}
    (h : d.Serves workers batches s.policy number journal) (told : d.Told s number journal)
    (follows : s.Follows script) (packs : ∀ b, ∃ envelope, s.pack b = .ok envelope)
    (ends : ∀ w ∈ d.workers, w.isOver = true) :
    d.settled.Perm ((batches.mapIdx Parcel.mk).map (Settled.foretold s.policy script)) := by
  have foretold : d.settled.map (fun x => Settled.foretold s.policy script x.parcel) = d.settled := by
    refine (List.map_congr_left fun x mem => ?_).trans (List.map_id _)
    obtain ⟨w, hw, mem⟩ := List.mem_flatMap.1 mem
    obtain ⟨i, found⟩ := List.mem_iff_getElem?.1 hw
    obtain ⟨c, tale, closes⟩ := (told.workers i w found).settled x (h.mem_settled ends hw mem)
    exact (closes.eq_foretold tale follows packs).symm
  obtain ⟨-, received⟩ := h.received_of_all_over ends
  have parcels := (h.tended.settled_parcels ends).map (Settled.foretold s.policy script)
  rw [List.map_map, received] at parcels
  rw [← foretold]
  exact parcels

/-- In the end each batch has been settled by one worker and by no other one. -/
theorem handed_to_one (h : d.Serves workers batches s.policy number journal) (told : d.Told s number journal)
    (ends : ∀ w ∈ d.workers, w.isOver = true) {parcel : Parcel} (mem : parcel ∈ batches.mapIdx Parcel.mk) :
    ∃! i : Nat, ∃ w : Worker, d.workers[i]? = some w ∧ parcel ∈ w.legacy.map (·.parcel) := by
  obtain ⟨-, received⟩ := h.received_of_all_over ends
  rw [← received] at mem
  obtain ⟨x, hx, rfl⟩ := List.mem_map.1 ((h.tended.settled_parcels ends).mem_iff.2 mem)
  obtain ⟨w, hw, hx⟩ := List.mem_flatMap.1 hx
  obtain ⟨i, found⟩ := List.mem_iff_getElem?.1 hw
  refine ⟨i, ⟨w, found, List.mem_map_of_mem hx⟩, ?_⟩
  rintro j ⟨v, other, theirs⟩
  have hv := List.mem_of_getElem? other
  obtain ⟨y, hy, same⟩ := List.mem_map.1 theirs
  have mine : x.parcel ∈ w.parcels :=
    List.mem_append_right _ (List.mem_map_of_mem (h.mem_settled ends hw hx))
  have also : x.parcel ∈ v.parcels :=
    List.mem_append_right _ (List.mem_map.2 ⟨y, h.mem_settled ends hv hy, same⟩)
  exact place_unique told.nodup other found also mine

/-- A drain that has served its batches to the end. -/
theorem refines {script : Parcel → Nat → Except PostFailure Unit}
    (h : d.Serves workers batches s.policy number journal) (told : d.Told s number journal)
    (follows : s.Follows script) (packs : ∀ b, ∃ envelope, s.pack b = .ok envelope)
    (ends : ∀ w ∈ d.workers, w.isOver = true) :
    d.Refines workers s.policy script batches number journal := by
  have settled := h.settled_foretold told follows packs ends
  refine ⟨settled, ?_, fun parcel mem => h.handed_to_one told ends mem, fun i w found x mem => ?_, fun o mem => ?_⟩
  · have fates := settled.map Settled.fate
    rw [List.map_map] at fates
    rw [d.map_outcomes (f := Outcome.fate) (g := Settled.fate) fun _ _ => rfl]
    exact fates
  · have hw := List.mem_of_getElem? found
    obtain ⟨c, tale, closes⟩ := (told.workers i w found).settled x (h.mem_settled ends hw mem)
    exact closes.account tale
  · rw [← h.staff]
    exact Drain.worker_lt_of_mem_outcomes mem

end Drain.Serves

end Pool

namespace Agent

/-- An agent that does nothing but drain given batches. -/
def pool (s : AgentSettings) (batches : List Batch) : Agent :=
  (Agent.initial s.workers ⟨[], []⟩).startDrain s (Pipeline.ofBatches batches true)

/-- What may happen to an agent whose tasks work and of which nothing is asked: they take steps in any
order, and the clock moves on. -/
def working (_ : Agent) : Event → Bool
  | .work _ => true
  | .wait _ => true
  | .ask _ => false

/-- An agent whose only drain serves given batches. -/
structure Serves (s : AgentSettings) (batches : List Batch) (a : Agent) (d : Drain) : Prop where
  signal : a.shared.cancelled = false
  course : a.course = .idle
  pending : a.pending = []
  drains : a.drains = [d]
  serves : d.Serves s.workers batches s.delivery.policy 0 a.shared.journal
  linked : a.Linked
  told : a.Told s.delivery
  law : Lawful (Pool.effectiveWorkers s.workers) a.shared.permits a.shared.journal a.crew

variable {s : AgentSettings} {a b : Agent} {batches : List Batch} {d e : Drain}

theorem serves_pool (s : AgentSettings) (batches : List Batch) :
    (pool s batches).Serves s batches (Drain.ofStages s.workers (Pipeline.ofBatches batches true)) := by
  have opened : Change s (Agent.initial s.workers ⟨[], []⟩) (.ask (.drain (Pipeline.ofBatches batches true)))
      (pool s batches) := .opened _
  have linked : (pool s batches).Linked := by
    refine (linked_initial s.workers ⟨[], []⟩).next opened ?_
    rintro stages same
    cases same
    exact ⟨Pipeline.linked_ofBatches batches, rfl⟩
  exact ⟨rfl, rfl, rfl, rfl, Drain.serves_ofBatches _ _ _ _ _, linked, (told_initial _ _ _).next opened,
    lawful_of_change (lawful_initial s.workers ⟨[], []⟩) opened⟩

namespace Serves

theorem drain_eq (h : a.Serves s batches d) {n : Nat} (found : a.drains[n]? = some e) : n = 0 ∧ e = d := by
  rw [h.drains] at found
  obtain ⟨hn, rfl⟩ := List.getElem?_eq_some_iff.1 found
  obtain rfl : n = 0 := by simpa using hn
  exact ⟨rfl, rfl⟩

/-- The clock moves on. -/
theorem wait (h : a.Serves s batches d) (time : Time) : (a.advance time).Serves s batches d := by
  have change : Change s a (.wait time) (a.advance time) := .waited time
  exact ⟨h.signal, h.course, h.pending, h.drains, h.serves, h.linked.next change (by simp), h.told.next change,
    lawful_of_change h.law change⟩

/-- Every step of a task is one of the drain, and leaves it less to do. -/
theorem step (h : a.Serves s batches d) (works : s.delivery.Works)
    (answered : s.delivery.Answered) {task : Task}
    (step : a.step s task = some b) :
    ∃ e, b.Serves s batches e ∧ e.workload s.delivery.policy < d.workload s.delivery.policy := by
  have change : Change s a (.work task) b := change_of_after step
  have linked := h.linked.next change (by simp)
  have told := h.told.next change
  have law := lawful_of_change h.law change
  cases task with
  | own => simp [Agent.step, ownStep, h.course] at step
  | feed i => simp [Agent.step, h.pending] at step
  | drain n task =>
    obtain ⟨e, found, hs⟩ := Option.bind_eq_some_iff.1 step
    obtain ⟨⟨shared, after⟩, moved, heq⟩ := Option.bind_eq_some_iff.1 hs
    cases heq
    obtain ⟨rfl, rfl⟩ := h.drain_eq found
    obtain ⟨serves, signal, less⟩ := h.serves.step works answered h.signal moved
    exact ⟨after, ⟨signal, h.course, h.pending, by simp [h.drains], serves, linked, told, law⟩, less⟩

/-- However the tasks take their turns, they use up the steps that were left. -/
theorem follow (h : a.Serves s batches d) (works : s.delivery.Works)
    (answered : s.delivery.Answered) {es : List Event}
    (run : a.follow? s working es = some b) :
    ∃ e, b.Serves s batches e ∧
      es.countP Event.isStep + e.workload s.delivery.policy ≤ d.workload s.delivery.policy := by
  let left (c : Agent) : Nat := (c.drains.map (Drain.workload s.delivery.policy)).sum
  have only {c : Agent} {e : Drain} (h : c.Serves s batches e) : left c = e.workload s.delivery.policy := by
    simp [left, h.drains]
  obtain ⟨⟨e, serves⟩, bound⟩ : (∃ e, b.Serves s batches e) ∧ es.countP Event.isStep + left b ≤ left a := by
    refine steps_le_of_follow? (fun c => ∃ e, c.Serves s batches e) left ?_ ?_ ⟨d, h⟩ run
    · rintro c task c' ⟨e, serves⟩ step
      obtain ⟨e', serves', less⟩ := serves.step works answered step
      rw [only serves, only serves']
      exact ⟨⟨e', serves'⟩, less⟩
    · rintro c event c' ⟨e, serves⟩ allowed other after
      cases event with
      | work task => cases other
      | ask request => cases allowed
      | wait time =>
        cases after
        exact ⟨⟨e, serves.wait time⟩, Nat.le_refl _⟩
  rw [only h, only serves] at bound
  exact ⟨e, serves, bound⟩

/-- When no task can take a step although every moment that one waits for has come, the drain has
returned. -/
theorem returned_of_stuck (h : a.Serves s batches d) (stuck : ∀ task, a.step s task = none)
    (come : ∀ t ∈ a.timers, t ≤ a.now) : d.hasReturned = true := by
  have idle : ∀ x ∈ a.crew, x.2.awaits = false := by
    intro x hx
    by_contra awaits
    rw [Bool.not_eq_false] at awaits
    obtain ⟨e, found, worker⟩ := mem_crew.1 hx
    obtain ⟨first, rfl⟩ := h.drain_eq found
    have mem := List.mem_of_getElem? worker
    have still := Drain.worker_still (drain_still stuck found) worker
    obtain ⟨parcel, sending, t, phase, timer, later⟩ :=
      Pool.Scene.due_of_stuck h.signal (h.serves.timed _ mem) awaits still
    have waits : t ∈ a.timers := by
      refine List.mem_append_right _ (List.mem_flatMap.2 ⟨e, List.mem_of_getElem? found, ?_⟩)
      exact List.mem_filterMap.2 ⟨x.2, mem, by rw [show x.2.phase = _ from phase]; exact timer⟩
    exact absurd (come t waits) (Nat.not_le.2 later)
  have positive := Pool.effectiveWorkers_pos s.workers
  have returned := returned_of_still h.linked h.law positive h.signal stuck idle d (by simp [h.drains])
  exact returned.1

/-- From wherever it is, the drain is brought to its end by waiting and letting the tasks work. -/
theorem comes_to_end (h : a.Serves s batches d) (works : s.delivery.Works)
    (answered : s.delivery.Answered) :
    ∃ es b e, a.follow? s working es = some b ∧ b.Serves s batches e ∧ e.hasReturned = true := by
  induction load : d.workload s.delivery.policy using Nat.strong_induction_on generalizing a d with
  | _ n ih =>
    by_cases returned : d.hasReturned = true
    · exact ⟨[], a, d, rfl, h, returned⟩
    · -- wait until every moment has come that a task waits for
      obtain ⟨time, come⟩ : ∃ time, ∀ t ∈ a.timers, t ≤ time :=
        ⟨_, fun t mem => List.le_max_of_le' 0 mem (Nat.le_refl t)⟩
      have later := h.wait time
      have moves : ∃ task b, (a.advance time).step s task = some b := by
        by_contra stuck
        refine returned (later.returned_of_stuck (fun task => ?_) fun t mem => ?_)
        · by_contra goes
          obtain ⟨b, step⟩ := Option.ne_none_iff_exists'.1 goes
          exact stuck ⟨task, b, step⟩
        · exact Nat.le_trans (come t mem) (Nat.le_max_right _ _)
      obtain ⟨task, b, step⟩ := moves
      obtain ⟨e, serves, less⟩ := later.step works answered step
      obtain ⟨es, c, f, run, ends⟩ := ih _ (load ▸ less) serves rfl
      refine ⟨.wait time :: .work task :: es, c, f, ?_, ends⟩
      simp only [follow?, working, if_true, after?, Option.bind_some, step]
      exact run

end Serves

/-- Batches are handed to a pool whose posts are answered by a script, whatever the durations, and nobody
cancels. However the workers take their turns, the drain comes to its end: it takes no more steps than
are there for so many workers and batches, it is never stuck before its end unless a moment that is
waited for is still to come, and its end is in reach. Then each batch has one outcome, the one that the
script foretells, and was handed to one worker, which posted it as often as the outcome says and never
again after a post that was accepted or refused. A single worker, one batch after another, comes to the
same. -/
theorem pool_refines_sequential {key : Option Text.Utf8.Octets} {script : Parcel → Nat → Except PostFailure Unit}
    {es : List Event} (packs : s.delivery.pack = Envelope.ofBatch key) (pauses : s.delivery.policy.fits = true)
    (follows : s.delivery.Follows script) (run : (pool s batches).follow? s working es = some a) :
    ∃ d, a.drains = [d] ∧
      es.countP Event.isStep ≤
        2 * Pool.effectiveWorkers s.workers + Pool.batchload s.delivery.policy * batches.length + 1 ∧
      ((∀ task, a.step s task = none) → (∀ t ∈ a.timers, t ≤ a.now) → d.hasReturned = true) ∧
      (∃ rest b, a.follow? s working rest = some b ∧ b.isQuiet = true) ∧
      (d.hasReturned = true →
        d.Refines s.workers s.delivery.policy script batches 0 a.shared.journal ∧
        ∀ fs b e, (pool { s with workers := 1 } batches).follow? { s with workers := 1 } working fs = some b →
          b.drains = [e] → e.hasReturned = true →
            (d.outcomes.map Outcome.fate).Perm (e.outcomes.map Outcome.fate)) := by
  have works := follows.works packs pauses
  -- what holds of every pool with these deliveries, for the workers at hand and for a single one
  have refines : ∀ (workers : Nat) (fs : List Event) (b : Agent) (e : Drain),
      (pool { s with workers } batches).follow? { s with workers } working fs = some b → b.drains = [e] →
        e.hasReturned = true → e.Refines workers s.delivery.policy script batches 0 b.shared.journal := by
    intro workers fs b e run only returned
    obtain ⟨c, serves, -⟩ := (serves_pool { s with workers } batches).follow works follows.answered run
    obtain rfl : c = e := by simpa [serves.drains] using only
    have ends := (serves.linked.drains c (by simp [serves.drains])).allOver returned
    exact serves.serves.refines (serves.told.drains 0 c (by simp [serves.drains])) follows works.packs ends
  obtain ⟨d, serves, bound⟩ := (serves_pool s batches).follow works follows.answered run
  rw [Drain.workload_ofBatches] at bound
  refine ⟨d, serves.drains, by omega, serves.returned_of_stuck, ?_, fun returned => ?_⟩
  · obtain ⟨rest, b, e, run, ends, returned⟩ := serves.comes_to_end works follows.answered
    exact ⟨rest, b, run, by simp [isQuiet, ends.drains, returned]⟩
  · have here := refines s.workers es a d run serves.drains returned
    refine ⟨here, fun fs b e run' only returned' => ?_⟩
    exact here.outcomes.trans (refines 1 fs b e run' only returned').outcomes.symm

/-- Three batches of one record each. -/
def threeBatches : List Batch := [1, 2, 3].map fun n => [Sampling.Sampler.pollCount n]

/-- What is answered to their posts: the first one is accepted at once, the second one at the second
attempt, and the third one is refused. -/
def mixed : Parcel → Nat → Except PostFailure Unit
  | ⟨0, _⟩, _ => .ok ()
  | ⟨1, _⟩, 1 => .error (.unreachable "nobody is there")
  | ⟨1, _⟩, _ => .ok ()
  | _, _ => .error (.refused 500 "down")

/-- An agent with two workers whose posts are answered after five moments. -/
def twoWorkers : AgentSettings where
  batchSize := 1
  workers := 2
  delivery :=
    { pack := Envelope.ofBatch none, policy := ⟨1, 2, 0⟩
      transport := fun _ post => ⟨some 5, .result (mixed post.parcel post.attempt)⟩ }

/-- Two workers share three batches. The first one waits for the end of a pause while the second one
delivers the other two. -/
theorem pool_refines_sequential_two_workers :
    ∃ (es : List Event) (a : Agent),
      (pool twoWorkers threeBatches).follow? twoWorkers working es = some a ∧
      a.drains.map (fun d => (d.hasReturned, d.outcomes.map fun o => (o.worker, o.attempts))) =
        [(true, [(0, 2), (1, 1), (1, 1)])] ∧
      ∃ d, a.drains = [d] ∧ es.countP Event.isStep ≤ 2 * 2 + 11 * 3 + 1 ∧
        ((∀ task, a.step twoWorkers task = none) → (∀ t ∈ a.timers, t ≤ a.now) → d.hasReturned = true) ∧
        (∃ rest b, a.follow? twoWorkers working rest = some b ∧ b.isQuiet = true) ∧
        (d.hasReturned = true →
          d.Refines 2 ⟨1, 2, 0⟩ mixed threeBatches 0 a.shared.journal ∧
          ∀ fs b e, (pool { twoWorkers with workers := 1 } threeBatches).follow?
              { twoWorkers with workers := 1 } working fs = some b →
            b.drains = [e] → e.hasReturned = true →
              (d.outcomes.map Outcome.fate).Perm (e.outcomes.map Outcome.fate)) := by
  let work (i : Nat) (k : Nat) : List Event := List.replicate k (.work (.drain 0 (.work i)))
  let early : List Event := work 1 2 ++ work 0 4 ++ work 1 2 ++ [.wait 5] ++ work 0 1 ++ work 1 6
  let late : List Event := [.wait 7] ++ work 0 2 ++ [.wait 10] ++ work 1 4 ++ [.wait 12] ++ work 0 4
  let es : List Event := early ++ late ++ [.work (.drain 0 .finish)]
  obtain ⟨a, run, facts⟩ := (Option.any_eq_true _ _).1 (show
    (((pool twoWorkers threeBatches).follow? twoWorkers working es).any fun a =>
      decide (a.drains.map (fun d => (d.hasReturned, d.outcomes.map fun o => (o.worker, o.attempts))) =
        [(true, [(0, 2), (1, 1), (1, 1)])])) = true by decide +kernel)
  exact ⟨es, a, run, of_decide_eq_true facts, pool_refines_sequential rfl (by decide) (fun _ _ => ⟨_, rfl⟩) run⟩

/-- Under a policy with a pause that no span can hold, the worker dies before the retry: the drain
returns without an outcome for its batch. -/
theorem pool_loses_outcome :
    (unreached Span.longest 1).delivery.policy.fits = false ∧
      (unreached Span.longest 1).delivery.Follows (fun _ _ => .error (.unreachable "nobody is there")) ∧
      ∃ (es : List Event) (a : Agent),
        (pool (unreached Span.longest 1) [[Sampling.Sampler.pollCount 1]]).follow?
          (unreached Span.longest 1) working es = some a ∧
        a.drains.map (fun d => (d.hasReturned, d.outcomes)) = [(true, [])] := by
  let work (k : Nat) : List Event := List.replicate k (.work (.drain 0 (.work 0)))
  let es : List Event := work 4 ++ [.wait Span.patience] ++ work 2 ++ [.work (.drain 0 .finish)]
  obtain ⟨a, run, facts⟩ := (Option.any_eq_true _ _).1 (show
    (((pool (unreached Span.longest 1) [[Sampling.Sampler.pollCount 1]]).follow?
      (unreached Span.longest 1) working es).any fun a =>
        decide (a.drains.map (fun d => (d.hasReturned, d.outcomes)) = [(true, [])])) = true by
    decide +kernel)
  exact ⟨by decide, fun _ _ => ⟨0, rfl⟩, es, a, run, of_decide_eq_true facts⟩

end Agent

end Telemetry
