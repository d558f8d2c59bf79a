/-
What an agent has collected and handed on: its polls, its reports and the snapshots of its drains. The
tasks that deliver write no poll and no report down and leave every snapshot where it is, whatever the
collector answers and however long it takes (`Change.ledger_of_delivers`).
-/
import Telemetry.Proofs.Agent.History
import Telemetry.Proofs.Around
import Telemetry.Proofs.Pool.Move
import Telemetry.Proofs.Stage.Flow

namespace Telemetry

open Pool (Drain Scene Worker)
open Stage (Lane Pipeline Source)

/-! ## The journal -/

namespace Entry

/-- Whether an entry tells of a post. -/
def isPost : Entry → Bool
  | .begun _ => true
  | .ended _ _ _ => true
  | _ => false

/-- The poll that an entry tells of. -/
def poll? : Entry → Option (Time × Snapshot)
  | .polled time snapshot => some (time, snapshot)
  | _ => none

/-- The report that an entry tells of. -/
def report? : Entry → Option (Time × List Snapshot)
  | .reported time snapshots => some (time, snapshots)
  | _ => none

end Entry

namespace Journal

/-- The polls with what they read, in their order. -/
def polls (j : Journal) : List (Time × Snapshot) := j.reverse.filterMap Entry.poll?

/-- The reports with what they handed on, in their order. -/
def reports (j : Journal) : List (Time × List Snapshot) := j.reverse.filterMap Entry.report?

variable {j entries : Journal}

theorem polls_append_posts (h : ∀ e ∈ entries, e.isPost = true) : (entries ++ j).polls = j.polls := by
  have noPolls : entries.reverse.filterMap Entry.poll? = [] := by
    refine List.filterMap_eq_nil_iff.2 fun e he => ?_
    have := h e (List.mem_reverse.1 he)
    cases e <;> first | rfl | cases this
  unfold polls
  rw [List.reverse_append, List.filterMap_append, noPolls, List.append_nil]

theorem reports_append_posts (h : ∀ e ∈ entries, e.isPost = true) :
    (entries ++ j).reports = j.reports := by
  have noReports : entries.reverse.filterMap Entry.report? = [] := by
    refine List.filterMap_eq_nil_iff.2 fun e he => ?_
    have := h e (List.mem_reverse.1 he)
    cases e <;> first | rfl | cases this
  unfold reports
  rw [List.reverse_append, List.filterMap_append, noReports, List.append_nil]

theorem polls_polled (j : Journal) (time : Time) (snapshot : Snapshot) :
    Journal.polls (.polled time snapshot :: j) = j.polls ++ [(time, snapshot)] := by
  simp [polls, Entry.poll?]

theorem reports_polled (j : Journal) (time : Time) (snapshot : Snapshot) :
    Journal.reports (.polled time snapshot :: j) = j.reports := by
  simp [reports, Entry.report?]

theorem polls_reported (j : Journal) (time : Time) (snapshots : List Snapshot) :
    Journal.polls (.reported time snapshots :: j) = j.polls := by
  simp [polls, Entry.poll?]

theorem reports_reported (j : Journal) (time : Time) (snapshots : List Snapshot) :
    Journal.reports (.reported time snapshots :: j) = j.reports ++ [(time, snapshots)] := by
  simp [reports, Entry.report?]

end Journal

/-! ## What a worker leaves alone -/

theorem Sending.Move.isPost {settings : DeliverySettings} {now : Time} {cancelled : Bool}
    {journal entries : Journal} {seat : Seat} {parcel : Parcel} {old new : Sending}
    (h : Move settings now cancelled journal seat parcel old new entries) :
    ∀ e ∈ entries, e.isPost = true := by
  intro e he
  cases h with
  | become moves =>
    unfold closing at he
    split at he
    · rw [List.mem_singleton.1 he]
      rfl
    · cases he
  | begin moves made goes seen =>
    rcases seen with ⟨-, rfl, -⟩ | ⟨-, -, rfl⟩
    · rw [List.mem_singleton.1 he]
      rfl
    · rcases List.mem_cons.1 he with rfl | he
      · rfl
      · rw [List.mem_singleton.1 he]
        rfl

/-- A worker moves neither the clock nor the signal, and it writes down nothing but its posts. -/
theorem Pool.Scene.Move.frame {settings : DeliverySettings} {seat : Seat} {old next : Scene}
    (h : old.Move settings seat next) :
    next.shared.now = old.shared.now ∧ next.shared.cancelled = old.shared.cancelled ∧
      ∃ entries : Journal, next.shared.journal = entries ++ old.shared.journal ∧
        ∀ e ∈ entries, e.isPost = true := by
  have nothing : ∀ e ∈ ([] : Journal), e.isPost = true := by intro e he; cases he
  cases h with
  | go phase noResult move => exact ⟨rfl, rfl, _, rfl, move.isPost⟩
  | @conclude parcel sending result phase ends =>
    cases result with
    | delivered n => exact ⟨rfl, rfl, [], rfl, nothing⟩
    | failed f =>
      by_cases gaveUp : f.isCancelled = true
      · rw [show old.conclude parcel (.failed f) = _ from if_pos gaveUp]
        exact ⟨rfl, rfl, [], rfl, nothing⟩
      · rw [show old.conclude parcel (.failed f) = _ from if_neg gaveUp]
        exact ⟨rfl, rfl, [], rfl, nothing⟩
    | crashed => exact ⟨rfl, rfl, [], rfl, nothing⟩
  | _ => exact ⟨rfl, rfl, [], rfl, nothing⟩

/-! ## The snapshots of a drain -/

/-- The snapshots that a drain was started with. -/
def Pool.Drain.snapshots (d : Drain) : List Snapshot := d.stages.merge.lanes.map (·.source.snapshot)

theorem Pool.Drain.snapshots_ofSources (workers : Nat) (sources : List Source) :
    (Drain.ofStages workers (Pipeline.ofSources sources)).snapshots = sources.map (·.snapshot) := by
  show (sources.map fun s => ({ source := s } : Lane)).map (fun l => l.source.snapshot) = _
  rw [List.map_map]
  rfl

theorem Stage.Source.snapshot_of_move {cancelled : Bool} {s t : Source} (h : s.Move cancelled t) :
    t.snapshot = s.snapshot := by
  cases h <;> rfl

theorem Stage.Lane.snapshot_of_move {cancelled : Bool} {out out' : Channel Record} {l l' : Lane}
    (h : l.Move cancelled out l' out') : l'.source.snapshot = l.source.snapshot := by
  cases h <;> rfl

theorem Stage.Pipeline.snapshots_of_move {cancelled : Bool} {size : Nat} {p q : Pipeline}
    (h : p.Move cancelled size q) :
    q.merge.lanes.map (·.source.snapshot) = p.merge.lanes.map (·.source.snapshot) := by
  cases h with
  | feed found move =>
    exact map_set_of_getElem? (f := fun l : Lane => l.source.snapshot) found (Source.snapshot_of_move move)
  | forward found move =>
    exact map_set_of_getElem? (f := fun l : Lane => l.source.snapshot) found (Lane.snapshot_of_move move)
  | batch move => rfl

/-! ## The agent -/

namespace Agent

/-- What was collected and handed on. -/
structure Ledger where
  polls : List (Time × Snapshot)
  reports : List (Time × List Snapshot)
  flushes : List (List Snapshot)
deriving DecidableEq, Repr

/-- What an agent has collected and handed on so far. -/
def ledger (a : Agent) : Ledger where
  polls := a.shared.journal.polls
  reports := a.shared.journal.reports
  flushes := a.drains.map (·.snapshots)

/-- Whether an event is a step on the way from an open generator to the collector. -/
def Event.delivers : Event → Bool
  | .work (.feed _) => true
  | .work (.drain _ _) => true
  | _ => false

theorem Event.collects_of_delivers {e : Event} (h : e.delivers = true) : e.collects = false := by
  unfold delivers at h
  split at h
  · rfl
  · rfl
  · cases h

variable {s : AgentSettings} {a b : Agent}

/-- What is left as it is by a step that delivers. -/
structure SameCollection (a b : Agent) : Prop where
  ledger : b.ledger = a.ledger
  pending : b.pending.map (·.snapshot) = a.pending.map (·.snapshot)
  sampler : b.sampler = a.sampler
  course : b.course = a.course
  now : b.now = a.now
  signal : b.shared.cancelled = a.shared.cancelled

/-- Exchanging one drain for another of the same snapshots, with nothing but posts written down. -/
theorem sameCollection_set {n : Nat} {d d' : Drain} {shared : Pool.Shared} {entries : Journal}
    (found : a.drains[n]? = some d) (same : d'.snapshots = d.snapshots)
    (journal : shared.journal = entries ++ a.shared.journal) (posts : ∀ e ∈ entries, e.isPost = true)
    (now : shared.now = a.now) (signal : shared.cancelled = a.shared.cancelled) :
    SameCollection a { a with shared, drains := a.drains.set n d' } := by
  refine ⟨?_, rfl, rfl, rfl, now, signal⟩
  show Ledger.mk shared.journal.polls shared.journal.reports ((a.drains.set n d').map Drain.snapshots) = _
  rw [journal, Journal.polls_append_posts posts, Journal.reports_append_posts posts,
    map_set_of_getElem? found same]
  rfl

/-- A step that delivers leaves the polls, the reports, all snapshots, the timers and the clock as they
are. -/
theorem Change.ledger_of_delivers {e : Event} (h : Change s a e b) (delivers : e.delivers = true) :
    SameCollection a b := by
  have still := Event.collects_of_delivers delivers
  have nothing : ∀ e ∈ ([] : Journal), e.isPost = true := by intro e he; cases he
  cases h with
  | polled collects course => rw [still] at collects; cases collects
  | reported collects course => rw [still] at collects; cases collects
  | turned collects course => rw [still] at collects; cases collects
  | waited time => cases delivers
  | cancelled => cases delivers
  | discarded => cases delivers
  | opened stages => cases delivers
  | fed found step =>
    exact ⟨rfl, map_set_of_getElem? found (Source.snapshot_of_move (Source.move_of_step step)), rfl, rfl, rfl, rfl⟩
  | staged found step =>
    have same := Pipeline.snapshots_of_move (Pipeline.move_of_step step)
    exact sameCollection_set found same (List.nil_append _).symm nothing rfl rfl
  | worked found worker step =>
    obtain ⟨now, signal, entries, journal, posts⟩ := (Scene.move_of_step step).frame
    exact sameCollection_set found rfl journal posts now signal
  | returned found first ends =>
    exact sameCollection_set found rfl (List.nil_append _).symm nothing rfl rfl

/-- Until the signal comes, the open generators hold their whole snapshots, on their way or still in
hand. -/
def PendingAreWhole (a : Agent) : Prop := a.shared.cancelled = false → ∀ source ∈ a.pending, source.IsWhole

theorem Change.pendingAreWhole {e : Event} (h : Change s a e b) (whole : a.PendingAreWhole) :
    b.PendingAreWhole := by
  have noSources : ∀ source ∈ ([] : List Source), source.IsWhole := by intro source hs; cases hs
  cases h with
  | polled collects course =>
    intro signal source hs
    rcases List.mem_append.1 hs with hs | hs
    · exact whole signal source hs
    · rw [List.mem_singleton.1 hs]
      exact Source.isWhole_ofSnapshot _
  | reported collects course => exact fun _ => noSources
  | turned collects course => exact whole
  | waited time => exact whole
  | cancelled => intro signal; cases signal
  | discarded => exact fun _ => noSources
  | opened stages => exact whole
  | fed found step =>
    intro signal source hs
    rw [show a.shared.cancelled = false from signal] at step
    rcases List.mem_or_eq_of_mem_set hs with hs | rfl
    · exact whole signal source hs
    · exact (whole signal _ (List.mem_of_getElem? found)).move (Source.move_of_step step)
  | staged found step => exact whole
  | worked found worker step =>
    obtain ⟨-, same, -⟩ := (Scene.move_of_step step).frame
    intro signal
    exact whole (same.symm.trans signal)
  | returned found first ends => exact whole

/-- Nothing but the signal itself sets the signal. -/
theorem Change.signal {e : Event} (change : Change s a e b) (other : e ≠ .ask .cancel) :
    b.shared.cancelled = a.shared.cancelled := by
  cases change with
  | cancelled => exact absurd rfl other
  | worked found worker step => exact (Scene.move_of_step step).frame.2.1
  | _ => rfl

end Agent

end Telemetry
