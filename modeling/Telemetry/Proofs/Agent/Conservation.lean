/-
End-to-end conservation. Polls and reports come in any number and at any time, by hand or by the agent's
own timers, drains overlap, and tasks take their steps in any order: as long as no signal comes, each
drain takes exactly the snapshots polled since the report before, and when it has returned, every record
of them has gone out in exactly one of its batches (`drains_conserve`).
-/
import Telemetry.Proofs.Pool.Conservation
import Telemetry.Proofs.Sampling.Reading

namespace Telemetry

open Pool (Drain Scene)
open Stage (Batcher Pipeline Source)

/-- The polled snapshots as the reports divide them: those of each report, and those since the last
one. -/
def Journal.cycles : Journal → List (List Snapshot) × List Snapshot
  | [] => ([], [])
  | .polled _ snapshot :: j => ((cycles j).1, (cycles j).2 ++ [snapshot])
  | .reported _ _ :: j => ((cycles j).1 ++ [(cycles j).2], [])
  | .begun _ :: j => cycles j
  | .ended _ _ _ :: j => cycles j

theorem Journal.cycles_append_posts {j entries : Journal} (h : ∀ e ∈ entries, e.isPost = true) :
    (entries ++ j).cycles = j.cycles := by
  induction entries with
  | nil => rfl
  | cons e entries ih =>
    have rest := ih fun e he => h e (List.mem_cons_of_mem _ he)
    have here := h e List.mem_cons_self
    cases e with
    | begun post => exact rest
    | ended post time finish => exact rest
    | polled time snapshot => cases here
    | reported time snapshots => cases here

namespace Agent

/-- What may happen to an agent that is not interrupted: anything but the signal, and nothing is thrown
away or delivered that it did not collect. -/
def uninterrupted (_ : Agent) : Event → Bool
  | .work _ => true
  | .wait _ => true
  | .ask .poll => true
  | .ask .report => true
  | .ask _ => false

/-- An agent on whose way no record is lost. -/
structure Conserves (s : AgentSettings) (a : Agent) : Prop where
  signal : a.shared.cancelled = false
  pending : a.PendingAreWhole
  drains : ∀ n (d : Drain), a.drains[n]? = some d →
    d.Conserves s.batchSize s.delivery.policy n a.shared.journal
  cycles : a.shared.journal.cycles = (a.drains.map (·.snapshots), a.pending.map (·.snapshot))

variable {s : AgentSettings} {a b : Agent}

/-- One drain is exchanged for another one. -/
theorem drains_set {p : Nat → Drain → Prop} {drains : List Drain} {n : Nat} {d : Drain}
    (others : ∀ m x, drains[m]? = some x → p m x) (here : p n d) :
    ∀ m x, (drains.set n d)[m]? = some x → p m x := by
  intro m x hx
  rw [List.getElem?_set] at hx
  split at hx
  · rename_i same
    split at hx
    · cases hx
      exact same ▸ here
    · cases hx
  · exact others m x hx

namespace Conserves

/-- One drain is exchanged for another one of the same snapshots, and nothing but posts is written
down. -/
theorem set (h : a.Conserves s) {n : Nat} {d d' : Drain} {shared : Pool.Shared} {entries : Journal}
    (found : a.drains[n]? = some d) (same : d'.snapshots = d.snapshots)
    (signal : shared.cancelled = a.shared.cancelled)
    (journal : shared.journal = entries ++ a.shared.journal) (posts : ∀ e ∈ entries, e.isPost = true)
    (here : d'.Conserves s.batchSize s.delivery.policy n shared.journal) :
    ({ a with shared, drains := a.drains.set n d' } : Agent).Conserves s := by
  refine ⟨signal.trans h.signal, fun _ => h.pending h.signal, drains_set (fun m x hx => ?_) here, ?_⟩
  · refine (h.drains m x hx).mono fun parcel posted => ?_
    show shared.journal.Posted m parcel
    rw [journal]
    exact posted.append entries
  · show shared.journal.cycles = ((a.drains.set n d').map (·.snapshots), _)
    rw [journal, Journal.cycles_append_posts posts, h.cycles]
    exact congrArg (·, _) (map_set_of_getElem? found same).symm

/-- Every event that may happen loses nothing. -/
theorem next (h : a.Conserves s) (works : s.delivery.Works) (fits : Batcher.fits s.batchSize = true)
    {e : Event} (allowed : uninterrupted a e = true) (change : Change s a e b) : b.Conserves s := by
  have pending := change.pendingAreWhole h.pending
  have nothing : ∀ e ∈ ([] : Journal), e.isPost = true := by intro e he; cases he
  cases change with
  | polled collects course =>
    refine ⟨h.signal, pending, fun n d found => (h.drains n d found).mono fun _ posted => posted.append [_], ?_⟩
    show (a.shared.journal.cycles.1, a.shared.journal.cycles.2 ++ [_]) =
      (_, (a.pending ++ [_]).map Source.snapshot)
    rw [h.cycles, List.map_append]
    rfl
  | reported collects course =>
    have started := Drain.Conserves.ofSources s.batchSize s.delivery.policy a.drains.length
      (.reported a.now (a.pending.map (·.snapshot)) :: a.shared.journal) s.workers (h.pending h.signal)
    refine ⟨h.signal, pending, fun n d found => ?_, ?_⟩
    · have found : (a.drains ++ [_])[n]? = some d := found
      rw [List.getElem?_append] at found
      split at found
      · exact (h.drains n d found).mono fun _ posted => posted.append [_]
      · -- the new drain, which begins with the snapshots that were waiting
        rename_i beyond
        obtain ⟨last, rfl⟩ := List.getElem?_eq_some_iff.1 found
        have here : n = a.drains.length := by
          rw [List.length_singleton] at last
          omega
        subst here
        simp only [Nat.sub_self, List.getElem_cons_zero]
        exact started
    · show (a.shared.journal.cycles.1 ++ [a.shared.journal.cycles.2], []) =
        ((a.drains ++ [_]).map Drain.snapshots, _)
      rw [h.cycles, List.map_append, List.map_singleton, Drain.snapshots_ofSources]
      rfl
  | turned collects course => exact ⟨h.signal, pending, h.drains, h.cycles⟩
  | waited time => exact ⟨h.signal, pending, h.drains, h.cycles⟩
  | cancelled => cases allowed
  | discarded => cases allowed
  | opened stages => cases allowed
  | fed found step =>
    refine ⟨h.signal, pending, h.drains, ?_⟩
    rw [h.cycles]
    exact congrArg (_, ·) (map_set_of_getElem? found (Source.snapshot_of_move (Source.move_of_step step))).symm
  | staged found step =>
    rw [h.signal] at step
    have move := Pipeline.move_of_step step
    exact h.set found (Pipeline.snapshots_of_move move) rfl (List.nil_append _).symm nothing
      ((h.drains _ _ found).stage fits move)
  | worked found worker step =>
    have move := Scene.move_of_step step
    obtain ⟨-, signal, entries, journal, posts⟩ := move.frame
    have here := h.drains _ _ found
    -- what the pool shares changes with the worker, but a post once begun stays in the journal
    have kept := move.kept works h.signal (here.diligent _ (List.mem_of_getElem? worker))
    refine h.set found rfl signal journal posts (here.work rfl worker (Scene.live_of_step step) kept ?_)
    intro parcel posted
    rw [journal]
    exact posted.append entries
  | returned found first ends =>
    exact h.set found rfl rfl (List.nil_append _).symm nothing
      ((h.drains _ _ found).finish (List.all_eq_true.1 ends) _)

end Conserves

theorem conserves_of_reaches {course : Course} {sampler : Sampling.Sampler} (works : s.delivery.Works)
    (fits : Batcher.fits s.batchSize = true)
    (run : Reaches s uninterrupted { Agent.initial s.workers sampler with course } a) : a.Conserves s := by
  refine run.keeps (·.Conserves s) ⟨rfl, fun _ source hs => ?_, fun n d found => ?_, rfl⟩ ?_
  · cases hs
  · cases found
  · rintro b e c h allowed step
    exact h.next works fits allowed (change_of_after step)

/-- The reports divide the polled snapshots among the drains, in their order and none twice; and a drain
that has returned has sent each record of its snapshots in exactly one batch, which was posted and then
counted as delivered or failed. -/
theorem drains_conserve {course : Course} {sampler : Sampling.Sampler} {key : Option Text.Utf8.Octets}
    (packs : s.delivery.pack = Envelope.ofBatch key)
    (answers : ∀ seen post, ∃ r, (s.delivery.transport seen post).answer = .result r)
    (pauses : s.delivery.policy.fits = true) (fits : Batcher.fits s.batchSize = true)
    (run : Reaches s uninterrupted { Agent.initial s.workers sampler with course } a) :
    a.shared.journal.cycles = (a.drains.map (·.snapshots), a.pending.map (·.snapshot)) ∧
      ∀ n (d : Drain), a.drains[n]? = some d → d.hasReturned = true →
        d.Settles s.batchSize n a.shared.journal := by
  have works : s.delivery.Works := by
    refine ⟨fun b => ?_, answers, pauses⟩
    rw [packs]
    exact ⟨_, rfl⟩
  have h := conserves_of_reaches works fits run
  exact ⟨h.cycles, fun n d found returned => (h.drains n d found).settles returned⟩

/-- An agent with one worker whose every post finds nobody, under a policy of one retry. -/
def unreached (initial increment : Span) : AgentSettings where
  batchSize := 2
  workers := 1
  delivery :=
    { pack := Envelope.ofBatch none, policy := ⟨1, initial, increment⟩
      transport := fun _ _ => ⟨some 0, .result (.error (.unreachable "nobody is there"))⟩ }

/-- Three polls and a report: two batches of two records and of one, each posted twice and then counted
as failed. -/
theorem drains_conserve_three_polls :
    ∃ a : Agent, Reaches (unreached 0 0) uninterrupted (Agent.initial 1 ⟨[.pollCounter], []⟩) a ∧
      (a.shared.journal.posts.length = 4 ∧ (a.drains.map (·.summary)) = [⟨2, 0, 2, 3⟩]) ∧
      a.shared.journal.cycles = (a.drains.map (·.snapshots), a.pending.map (·.snapshot)) ∧
      ∀ n (d : Drain), a.drains[n]? = some d → d.hasReturned = true → d.Settles 2 n a.shared.journal := by
  let steps (k : Nat) (t : Drain.Task) : List Event := List.replicate k (.work (.drain 0 t))
  let lanes : List Event := [0, 1, 2].flatMap fun i => steps 3 (.stage (.feed i)) ++ steps 3 (.stage (.forward i))
  let batches : List Event := steps 8 (.stage .batch)
  let worker : List Event := steps 16 (.work 0) ++ steps 1 .finish
  obtain ⟨a, run, facts⟩ := exists_reaches (unreached 0 0) uninterrupted (Agent.initial 1 ⟨[.pollCounter], []⟩)
    ([.ask .poll, .ask .poll, .ask .poll, .ask .report] ++ lanes ++ batches ++ worker)
    (fun a => a.shared.journal.posts.length = 4 ∧ (a.drains.map (·.summary)) = [⟨2, 0, 2, 3⟩])
    (by decide +kernel)
  exact ⟨a, run, of_decide_eq_true facts, drains_conserve rfl (fun _ _ => ⟨_, rfl⟩) (by decide) (by decide) run⟩

/-- Under a policy with a pause that no span can hold, the worker dies before the retry, and the batch is
in no summary though its drain returns. -/
theorem drain_loses_batch :
    (unreached Span.longest 1).delivery.policy.fits = false ∧
      ∃ a : Agent, Reaches (unreached Span.longest 1) uninterrupted (Agent.initial 1 ⟨[.pollCounter], []⟩) a ∧
        a.drains.map (·.snapshots) = [[[Sampling.Sampler.pollCount 1]]] ∧
        a.drains.all (·.hasReturned) = true ∧ a.drains.map (·.summary) = [⟨0, 0, 0, 0⟩] ∧
        ∀ d ∈ a.drains, ¬ d.Settles 2 0 a.shared.journal := by
  let steps (k : Nat) (t : Drain.Task) : List Event := List.replicate k (.work (.drain 0 t))
  let stages : List Event :=
    steps 3 (.stage (.feed 0)) ++ steps 3 (.stage (.forward 0)) ++ steps 5 (.stage .batch)
  let worker : List Event := steps 4 (.work 0) ++ [.wait Span.patience] ++ steps 2 (.work 0) ++ steps 1 .finish
  obtain ⟨a, run, facts⟩ := exists_reaches (unreached Span.longest 1) uninterrupted
    (Agent.initial 1 ⟨[.pollCounter], []⟩) ([.ask .poll, .ask .report] ++ stages ++ worker)
    (fun a => a.drains.map (·.snapshots) = [[[Sampling.Sampler.pollCount 1]]] ∧
      a.drains.all (·.hasReturned) = true ∧ a.drains.map (·.summary) = [⟨0, 0, 0, 0⟩])
    (by decide +kernel)
  obtain ⟨snapshots, returned, summaries⟩ := of_decide_eq_true facts
  refine ⟨by decide, a, run, snapshots, returned, summaries, fun d hd settles => ?_⟩
  have nothing : d.summary = ⟨0, 0, 0, 0⟩ := by
    have := List.mem_map_of_mem (f := (·.summary)) hd
    rw [summaries] at this
    exact List.mem_singleton.1 this
  have one : d.snapshots = [[Sampling.Sampler.pollCount 1]] := by
    have := List.mem_map_of_mem (f := (·.snapshots)) hd
    rw [snapshots] at this
    exact List.mem_singleton.1 this
  have summary := settles.summary
  rw [nothing, one] at summary
  cases summary

end Agent

end Telemetry
