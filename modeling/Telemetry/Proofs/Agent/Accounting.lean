/-
Honest accounts of every drain, whatever happens to the agent: tasks take their steps in any order,
drains overlap, and the signal comes at any moment or not at all. What a drain tells of its batches is
true (`Drain.Honest`), it tells nothing of a batch that was given up, and of no record it counts more
than have come into it: `accounts_honest`.

The accounts are read off the tales that the journal tells (`Agent.Told`), which tell the answers that
the posts were given (`Agent.Truthful`). What a drain has before it only wanes from one state to the next
(`Drain.Precedes`), and this carries over to whole runs (`Reaches.precedes`).
-/
import Mathlib.Algebra.Order.BigOperators.Group.List
import Mathlib.Algebra.Order.Group.Nat
import Telemetry.Proofs.Pool.Honest
import Telemetry.Proofs.Sampling.Reading

namespace Telemetry.Agent

open Pool (Drain Scene Worker)
open Stage (Lane Pipeline Source)

variable {s : AgentSettings} {a b : Agent}

/-! ## From state to state -/

/-- What happens leaves a drain at its place, with no more before it. -/
theorem Change.precedes {e : Event} (change : Change s a e b) {n : Nat} {d : Drain}
    (found : a.drains[n]? = some d) : ∃ e, b.drains[n]? = some e ∧ d.Precedes e := by
  have started : ∀ x : Drain, (a.drains ++ [x])[n]? = some d := by
    intro x
    rw [List.getElem?_append_left (List.getElem?_eq_some_iff.1 found).1]
    exact found
  -- one drain is exchanged for a later one
  have exchanged : ∀ {m : Nat} {x y : Drain}, a.drains[m]? = some x → x.Precedes y →
      ∃ e, (a.drains.set m y)[n]? = some e ∧ d.Precedes e := by
    intro m x y here later
    by_cases same : m = n
    · subst same
      obtain rfl : x = d := by simpa [here] using found
      exact ⟨y, List.getElem?_set_self (List.getElem?_eq_some_iff.1 here).1, later⟩
    · exact ⟨d, by rw [List.getElem?_set_ne same]; exact found, .refl d⟩
  cases change with
  | polled collects course => exact ⟨d, found, .refl d⟩
  | reported collects course => exact ⟨d, started _, .refl d⟩
  | turned collects course => exact ⟨d, found, .refl d⟩
  | waited time => exact ⟨d, found, .refl d⟩
  | cancelled => exact ⟨d, found, .refl d⟩
  | discarded => exact ⟨d, found, .refl d⟩
  | opened stages => exact ⟨d, started _, .refl d⟩
  | fed here step => exact ⟨d, found, .refl d⟩
  | staged here step => exact exchanged here (.stage (Pipeline.move_of_step step))
  | worked here worker step => exact exchanged here (.work worker (Scene.move_of_step step))
  | returned here first ends => exact exchanged here (.finish _ _)

theorem Reaches.precedes {allowed : Agent → Event → Bool} (run : Reaches s allowed a b) {n : Nat} {d : Drain}
    (found : a.drains[n]? = some d) : ∃ e, b.drains[n]? = some e ∧ d.Precedes e := by
  induction run with
  | refl => exact ⟨d, found, .refl d⟩
  | next before allowed step ih =>
    obtain ⟨e, there, first⟩ := ih
    obtain ⟨f, last, second⟩ := (change_of_after step).precedes there
    exact ⟨f, last, first.trans second⟩

/-! ## Open generators -/

/-- Open generators that have no more of any record than their snapshots. -/
def PendingWithin (a : Agent) : Prop :=
  ∀ source ∈ a.pending, ∀ r, source.left.count r ≤ source.snapshot.count r

theorem PendingWithin.next {e : Event} (h : a.PendingWithin) (change : Change s a e b) :
    b.PendingWithin := by
  have nothing : ∀ {c : Agent}, c.pending = [] → c.PendingWithin := by
    intro c empty source mem
    rw [empty] at mem
    cases mem
  cases change with
  | polled collects course =>
    intro source mem r
    rcases List.mem_append.1 (show source ∈ a.pending ++ [_] from mem) with mem | mem
    · exact h source mem r
    · rw [List.mem_singleton.1 mem]
      exact Nat.le_refl _
  | reported collects course => exact nothing rfl
  | discarded => exact nothing rfl
  | turned collects course => exact h
  | waited time => exact h
  | cancelled => exact h
  | opened stages => exact h
  | @fed i old new found step =>
    have move := Source.move_of_step step
    intro source mem r
    rcases List.mem_or_eq_of_mem_set mem with mem | rfl
    · exact h source mem r
    · rw [Source.snapshot_of_move move]
      exact Nat.le_trans (move.count_le r) (h old (List.mem_of_getElem? found) r)
  | staged found step => exact h
  | worked found worker step => exact h
  | returned found first ends => exact h

/-- A drain of open generators takes in no more than their snapshots. -/
theorem PendingWithin.intake (h : a.PendingWithin) (workers : Nat) :
    (Drain.ofStages workers (Pipeline.ofSources a.pending)).intake.Subperm
      (a.pending.map (·.snapshot)).flatten := by
  have left : (Drain.ofStages workers (Pipeline.ofSources a.pending)).intake =
      a.pending.flatMap Source.left := by
    show (a.pending.map fun s => ({ source := s } : Lane)).flatMap Lane.left = _
    rw [List.flatMap_map]
    rfl
  rw [left, ← List.flatMap_def]
  refine List.subperm_ext_iff.2 fun r _ => ?_
  rw [List.count_flatMap, List.count_flatMap]
  exact List.sum_le_sum fun source mem => h source mem r

/-! ## Answers -/

/-- An agent whose journal tells how the posts were answered. -/
structure Truthful (s : DeliverySettings) (a : Agent) : Prop where
  journal : a.shared.journal.Truthful s
  expects : ∀ x ∈ a.crew, x.2.Expects s a.shared.journal

namespace Truthful

/-- Something is written down that tells of the end of no post, and workers join who have done nothing. -/
theorem join (h : a.Truthful s.delivery) {fresh : List (Seat × Worker)} (crew : b.crew = a.crew ++ fresh)
    (idle : ∀ x ∈ fresh, x.2 = {}) (entries : Journal) (journal : b.shared.journal = entries ++ a.shared.journal)
    (silent : ∀ q time finish, .ended q time finish ∉ entries) : b.Truthful s.delivery := by
  constructor
  · rw [journal]
    exact h.journal.append fun q time finish mem => absurd mem (silent q time finish)
  · rw [crew, journal]
    intro x mem
    rcases List.mem_append.1 mem with mem | mem
    · exact (h.expects x mem).append entries
    · rintro parcel d phase
      rw [idle x mem] at phase
      cases phase

theorem initial (s : DeliverySettings) (workers : Nat) (sampler : Sampling.Sampler) (course : Course) :
    ({ Agent.initial workers sampler with course } : Agent).Truthful s := by
  constructor
  · rintro q time finish mem
    cases mem
  · rintro x mem
    cases mem

theorem next (h : a.Truthful s.delivery) {e : Event} (change : Change s a e b) : b.Truthful s.delivery := by
  cases crew_of_change change with
  | @moved seat old next l₁ l₂ before after here there move =>
    have mine : old.worker.Expects s.delivery old.shared.journal := by
      rw [here]
      exact h.expects (seat, old.worker) (by rw [before]; simp)
    obtain ⟨expects, entries, journal, told⟩ := move.answered mine
    rw [here] at journal
    constructor
    · rw [there, journal]
      rw [journal] at told
      exact h.journal.append told
    · rw [after, there]
      intro x mem
      rcases List.mem_append.1 mem with mem | mem
      · rw [journal]
        exact (h.expects x (by rw [before]; exact List.mem_append_left _ mem)).append entries
      · rcases List.mem_cons.1 mem with rfl | mem
        · exact expects
        · rw [journal]
          exact (h.expects x (by rw [before]; simp [mem])).append entries
  | joined crew idle permits journal =>
    rcases journal with same | ⟨time, snapshot, more⟩ | ⟨time, snapshots, more⟩
    · exact h.join crew idle [] same (by simp)
    · exact h.join crew idle [_] more (by simp)
    · exact h.join crew idle [_] more (by simp)

end Truthful

/-! ## Accounts -/

theorem Reaches.told {allowed : Agent → Event → Bool} (run : Reaches s allowed a b) (h : a.Told s.delivery) :
    b.Told s.delivery := by
  refine run.keeps (·.Told s.delivery) h ?_
  rintro b e c told allowed step
  exact told.next (change_of_after step)

theorem Reaches.truthful {allowed : Agent → Event → Bool} (run : Reaches s allowed a b)
    (h : a.Truthful s.delivery) : b.Truthful s.delivery := by
  refine run.keeps (·.Truthful s.delivery) h ?_
  rintro b e c truthful allowed step
  exact truthful.next (change_of_after step)

theorem Reaches.pendingWithin {allowed : Agent → Event → Bool} (run : Reaches s allowed a b)
    (h : a.PendingWithin) : b.PendingWithin := by
  refine run.keeps PendingWithin h ?_
  rintro b e c within allowed step
  exact within.next (change_of_after step)

/-- Whatever has happened to an agent and is still to happen, the accounts of a drain are honest. Of no
record there is more in the batches that it has settled than had come into it at an earlier time, and so
with the total of its summary; a drain that a report starts takes in no more than the snapshots that it
is given. A batch whose delivery has ended as cancelled will not be settled, nor will one that was put
down. -/
theorem accounts_honest {course : Course} {sampler : Sampling.Sampler} {n : Nat} {d e : Drain}
    (run : Reaches s anything { Agent.initial s.workers sampler with course } a)
    (rest : Reaches s anything a b) (before : a.drains[n]? = some d) (later : b.drains[n]? = some e) :
    e.Honest s.delivery n b.shared.journal ∧
      (e.settled.flatMap (·.parcel.batch)).Subperm d.intake ∧ e.summary.records ≤ d.intake.length ∧
      (Drain.ofStages s.workers (Pipeline.ofSources a.pending)).intake.Subperm
        (a.pending.map (·.snapshot)).flatten ∧
      (∀ w ∈ d.workers, ∀ parcel sending f, w.phase = .delivering parcel sending →
        sending.result? = some (.failed f) → f.isCancelled = true → ∀ x ∈ e.settled, x.parcel ≠ parcel) ∧
      ∀ parcel ∈ d.received.mapIdx Parcel.mk, (∀ w ∈ d.workers, parcel ∉ w.parcels) →
        ∀ x ∈ e.settled, x.parcel ≠ parcel := by
  have first : ({ Agent.initial s.workers sampler with course } : Agent).Told s.delivery := by
    obtain ⟨known, drains⟩ := told_initial s.delivery s.workers sampler
    exact ⟨known, drains⟩
  have told := run.told first
  have truthful := rest.truthful (run.truthful (.initial s.delivery s.workers sampler course))
  have toldLater := (rest.told told).drains n e later
  obtain ⟨e', found, wanes⟩ := rest.precedes before
  obtain rfl : e = e' := by simpa [later] using found
  have records : (e.settled.flatMap (·.parcel.batch)).Subperm d.intake :=
    List.subperm_ext_iff.2 fun r _ => Nat.le_trans (toldLater.count_settled_le r) (wanes.intake r)
  have pending : a.PendingWithin := run.pendingWithin (by rintro source mem; cases mem)
  refine ⟨toldLater.honest truthful.journal, records, ?_, pending.intake s.workers, ?_, ?_⟩
  · rw [e.summary_eq]
    exact records.length_le
  · intro w mem parcel sending f phase ends cancelled
    have forsaken := (told.drains n d before).forsakes_cancelled mem phase ends cancelled
    exact (wanes.forsaken parcel forsaken).not_settled
  · intro parcel received gone
    exact (wanes.forsaken parcel (Drain.forsakes_of_put_down received gone)).not_settled

/-- An agent with two workers, where the first batch of a drain is accepted at once and no other post is
ever answered. -/
def halfAnswered : AgentSettings where
  batchSize := 1
  workers := 2
  delivery :=
    { pack := Envelope.ofBatch none, policy := ⟨1, 5, 0⟩
      transport := fun _ post => ⟨if post.parcel.number = 0 then some 0 else none, .result (.ok ())⟩ }

/-- Three batches, of which one is delivered; then the signal comes while one is under way and one waits
for a permit. Both are given up, and the summary counts the first one only. -/
theorem accounts_honest_interrupted :
    ∃ (a b : Agent) (d e : Drain),
      Reaches halfAnswered anything (Agent.initial 2 ⟨[], []⟩) a ∧ Reaches halfAnswered anything a b ∧
      a.drains[0]? = some d ∧ b.drains[0]? = some e ∧
      (d.intake.length = 3 ∧ e.hasReturned = true ∧ e.summary = ⟨1, 1, 0, 1⟩ ∧
        d.workers.map (·.isDelivering) = [false, true]) ∧
      e.Honest halfAnswered.delivery 0 b.shared.journal ∧
      (e.settled.flatMap (·.parcel.batch)).Subperm d.intake ∧ e.summary.records ≤ d.intake.length ∧
      (Drain.ofStages 2 (Pipeline.ofSources a.pending)).intake.Subperm
        (a.pending.map (·.snapshot)).flatten ∧
      (∀ w ∈ d.workers, ∀ parcel sending f, w.phase = .delivering parcel sending →
        sending.result? = some (.failed f) → f.isCancelled = true → ∀ x ∈ e.settled, x.parcel ≠ parcel) ∧
      ∀ parcel ∈ d.received.mapIdx Parcel.mk, (∀ w ∈ d.workers, parcel ∉ w.parcels) →
        ∀ x ∈ e.settled, x.parcel ≠ parcel := by
  let work (i : Nat) (k : Nat) : List Event := List.replicate k (.work (.drain 0 (.work i)))
  let batches : List Batch := [1, 2, 3].map fun n => [Sampling.Sampler.pollCount n]
  let first : List Event := [.ask (.drain (Pipeline.ofBatches batches true))] ++ work 0 5 ++ work 1 4 ++
    work 0 2 ++ [.ask .cancel] ++ work 1 1 ++ work 0 1
  let afterwards : List Event := work 1 1 ++ [.work (.drain 0 .finish)]
  obtain ⟨a, run, onward⟩ := (Option.any_eq_true _ _).1 (show
    (((Agent.initial 2 ⟨[], []⟩).follow? halfAnswered anything first).any fun a =>
      (a.follow? halfAnswered anything afterwards).any fun b =>
        decide (a.drains.map (fun d => (d.intake.length, d.workers.map (·.isDelivering))) =
            [(3, [false, true])] ∧
          b.drains.map (fun e => (e.hasReturned, e.summary)) = [(true, ⟨1, 1, 0, 1⟩)])) = true by
    decide +kernel)
  obtain ⟨b, rest, facts⟩ := (Option.any_eq_true _ _).1 onward
  obtain ⟨early, late⟩ := of_decide_eq_true facts
  obtain ⟨d, drains, before⟩ := List.map_eq_singleton_iff.1 early
  obtain ⟨e, drains', after⟩ := List.map_eq_singleton_iff.1 late
  have run := Reaches.refl.follow? run
  have rest := Reaches.refl.follow? rest
  have found : a.drains[0]? = some d := by rw [drains]; rfl
  have found' : b.drains[0]? = some e := by rw [drains']; rfl
  obtain ⟨intake, delivering⟩ := Prod.mk.inj before
  obtain ⟨returned, summary⟩ := Prod.mk.inj after
  exact ⟨a, b, d, e, run, rest, found, found', ⟨intake, returned, summary, delivering⟩,
    accounts_honest run rest found found'⟩

end Telemetry.Agent
