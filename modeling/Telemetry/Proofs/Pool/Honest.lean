/-
What a drain tells of its batches is true, whether the signal comes or not and at any moment. A batch
that was settled was settled once; it counts as delivered when one of its posts was accepted, and as
failed when each of them was answered with a failure; it counts as many attempts as it has posts; and
the summary adds up what was settled (`Drain.Told.honest`).

And nothing is told of a batch that was given up: neither of one whose delivery ended as cancelled nor
of one that was put down (`Drain.Forsakes`). Of every record at most as many are settled as have come
into the drain (`Drain.intake`).
-/
import Mathlib.Data.List.Flatten
import Mathlib.Data.List.Perm.Subperm
import Telemetry.Proofs.Agent.Trail
import Telemetry.Proofs.Delivery.Answered
import Telemetry.Proofs.Pool.Account
import Telemetry.Proofs.Pool.Conservation
import Telemetry.Proofs.Stage.Loss

namespace Telemetry

/-! ## The posts of a batch -/

namespace Journal

/-- Entries that tell of failed posts only. -/
def AllFailed (j : Journal) : Prop := ∀ q ∈ j.posts, ∃ time f, .ended q time (.failed f) ∈ j

/-- One more post failed. -/
theorem AllFailed.cons {j : Journal} (h : j.AllFailed) (post : Post) (time : Time) (f : PostFailure) :
    AllFailed (.ended post time (.failed f) :: .begun post :: j) := by
  intro q hq
  have hq : q ∈ post :: j.posts := by simpa [Journal.posts] using hq
  rcases List.mem_cons.1 hq with rfl | hq
  · exact ⟨time, f, List.mem_cons_self⟩
  · obtain ⟨t, g, mem⟩ := h q hq
    exact ⟨t, g, List.mem_cons_of_mem _ (List.mem_cons_of_mem _ mem)⟩

variable {j : Journal} {drain : Nat} {parcel : Parcel} {q : Post}

theorem isAbout_of_mem_posts (mem : q ∈ (j.trail drain parcel).posts) :
    (Entry.begun q).isAbout drain parcel = true := by
  obtain ⟨e, he, begun⟩ := List.mem_filterMap.1 mem
  obtain ⟨-, about⟩ := List.mem_filter.1 he
  cases e with
  | begun p => cases begun; exact about
  | _ => cases begun

/-- All posts of a batch are told of in its trail. -/
theorem count_posts_trail (about : (Entry.begun q).isAbout drain parcel = true) :
    (j.trail drain parcel).posts.count q = j.posts.count q := by
  induction j with
  | nil => rfl
  | cons e j ih =>
    unfold trail at ih ⊢
    rw [List.filter_cons]
    split
    · cases e with
      | begun p => simpa [posts, List.count_cons] using ih
      | _ => exact ih
    · rename_i elsewhere
      rw [ih]
      cases e with
      | begun p =>
        have other : p ≠ q := by
          rintro rfl
          exact elsewhere about
        simp [posts, List.count_cons_of_ne other]
      | _ => rfl

end Journal

theorem Sending.Failed.allFailed {s : DeliverySettings} {seat : Seat} {parcel : Parcel}
    {envelope : Envelope} {n : Nat} {j : Journal} (h : Failed s seat parcel envelope n j) :
    j.AllFailed := by
  induction h with
  | start packed => simp [Journal.AllFailed, Journal.posts]
  | next before attempt answers again more ih => exact ih.cons _ _ _

namespace Pool

open Stage (Pipeline Source)

/-! ## What is told of one batch -/

/-- What is told of a batch that was settled, held against its posts and what was answered to them. -/
structure Settled.Honest (s : DeliverySettings) (number : Nat) (journal : Journal) (x : Settled) : Prop where
  attempts : x.attempts = (journal.trail number x.parcel).posts.length
  delivered : x.failure = none →
    ∃ q ∈ (journal.trail number x.parcel).posts, journal.Replied s q (.result (.ok ()))
  failed : ∀ f, x.failure = some f → f.isCancelled = false ∧
    ∀ q ∈ (journal.trail number x.parcel).posts,
      (∃ g, journal.Replied s q (.result (.error g))) ∧ ¬ journal.Replied s q (.result (.ok ()))

namespace Settled.Closes

variable {s : DeliverySettings} {seat : Seat} {x : Settled} {d : Sending} {trail : Journal}

/-- A batch that counts as delivered had a post accepted. -/
theorem accepted (h : x.Closes d) (tale : d.Tale s seat x.parcel trail) (success : x.failure = none) :
    ∃ q ∈ trail.posts, ∃ time, .ended q time .accepted ∈ trail := by
  rcases h with ⟨-, ends⟩ | ⟨f, failure, -⟩
  · cases tale with
    | @accepted envelope n post time j failed attempt answers =>
      exact ⟨post, by simp [Journal.posts], time, List.mem_cons_self⟩
    | _ => cases ends
  · rw [success] at failure
    cases failure

/-- A batch that counts as failed was not cancelled, and all its posts failed. -/
theorem allFailed (h : x.Closes d) (tale : d.Tale s seat x.parcel trail) {f : DeliveryFailure}
    (failure : x.failure = some f) : f.isCancelled = false ∧ trail.AllFailed := by
  rcases h with ⟨success, -⟩ | ⟨g, failure', -, kept, ends⟩
  · rw [success] at failure
    cases failure
  · obtain rfl : f = g := by simpa [failure] using failure'
    refine ⟨kept, ?_⟩
    cases tale with
    | unpacked why => simp [Journal.AllFailed, Journal.posts]
    | refused failed attempt answers final => exact failed.allFailed.cons _ _ _
    | exhausted failed attempt answers again last => exact failed.allFailed.cons _ _ _
    | cancelled failed => cases ends; cases kept
    | abandoned failed attempt => cases ends; cases kept
    | _ => cases ends

/-- What is told of a batch that was settled is true, by a journal that is. -/
theorem honest {number : Nat} {journal : Journal} (h : x.Closes d)
    (tale : d.Tale s seat x.parcel (journal.trail number x.parcel)) (truthful : journal.Truthful s) :
    x.Honest s number journal := by
  have account := h.account tale
  have here : ∀ e ∈ journal.trail number x.parcel, e ∈ journal := fun e mem => (List.mem_filter.1 mem).1
  refine ⟨?_, fun success => ?_, fun f failure => ?_⟩
  · have numbers := congrArg List.length account.attempts
    simpa using numbers.symm
  · obtain ⟨q, posted, time, ends⟩ := h.accepted tale success
    exact ⟨q, posted, truthful.accepted (here _ ends)⟩
  · obtain ⟨kept, failed⟩ := h.allFailed tale failure
    refine ⟨kept, fun q posted => ?_⟩
    obtain ⟨time, g, ends⟩ := failed q posted
    have replied := truthful.failed (here _ ends)
    refine ⟨⟨g, replied⟩, fun success => ?_⟩
    -- the attempts are numbered, so each post was begun once
    have nodup : (journal.trail number x.parcel).posts.Nodup := by
      refine List.Nodup.of_map (·.attempt) ?_
      rw [account.attempts, List.nodup_reverse]
      exact List.nodup_range'
    have once : journal.posts.count q ≤ 1 := by
      rw [← Journal.count_posts_trail (Journal.isAbout_of_mem_posts posted)]
      exact List.nodup_iff_count_le_one.1 nodup q
    cases replied.unique success once

end Settled.Closes

/-! ## What is told of all batches -/

/-- What is told of the batches of a drain, held against what it received and against the journal. -/
structure Drain.Honest (s : DeliverySettings) (number : Nat) (journal : Journal) (d : Drain) : Prop where
  once : (d.settled.map (·.parcel)).Nodup
  received : ∀ x ∈ d.settled, x.parcel ∈ d.received.mapIdx Parcel.mk
  outcomes : d.outcomes.map (fun o => (o.size, o.attempts, o.error)) =
    d.settled.map fun x => (x.parcel.batch.length, x.attempts, x.failure.map (·.message))
  accounts : ∀ x ∈ d.settled, x.Honest s number journal
  summary : d.summary = {
    batches := d.settled.length
    delivered := d.settled.countP (·.failure.isNone)
    failed := d.settled.countP (·.failure.isSome)
    records := (d.settled.map (·.parcel.batch.length)).sum }
  total : d.summary.delivered + d.summary.failed = d.summary.batches

theorem Worker.legacy_sublist (w : Worker) : w.legacy.Sublist w.settled.reverse := by
  unfold legacy
  split
  · exact List.nil_sublist _
  · exact .refl _

namespace Drain

variable {s : DeliverySettings} {number : Nat} {journal : Journal} {d : Drain}

theorem mem_settled {x : Settled} (mem : x ∈ d.settled) :
    ∃ (i : Nat) (w : Worker), d.workers[i]? = some w ∧ x ∈ w.settled := by
  obtain ⟨w, hw, mem⟩ := List.mem_flatMap.1 mem
  obtain ⟨i, found⟩ := List.mem_iff_getElem?.1 hw
  exact ⟨i, w, found, List.mem_reverse.1 (w.legacy_sublist.subset mem)⟩

/-- What was settled are batches of the workers, each at its place. -/
theorem settled_subperm (d : Drain) : (d.settled.map (·.parcel)).Subperm (d.workers.flatMap (·.parcels)) := by
  unfold settled
  rw [List.map_flatMap]
  induction d.workers with
  | nil => exact .refl _
  | cons w workers ih =>
    have own : (w.legacy.map (·.parcel)).Subperm w.parcels := by
      refine (w.legacy_sublist.map _).subperm.trans ?_
      rw [List.map_reverse]
      refine (List.reverse_perm _).subperm.trans ?_
      exact (List.sublist_append_right _ _).subperm
    rw [List.flatMap_cons, List.flatMap_cons]
    exact own.append ih

/-- What a drain tells of its batches is true. -/
theorem Told.honest (h : d.Told s number journal) (truthful : journal.Truthful s) :
    d.Honest s number journal := by
  have parcels := d.settled_subperm
  have once : (d.settled.map (·.parcel)).Nodup := by
    obtain ⟨l, perm, sub⟩ := parcels
    exact perm.nodup_iff.1 (sub.nodup h.nodup)
  refine ⟨once, fun x mem => ?_, d.map_outcomes fun _ _ => rfl, fun x mem => ?_, ?_, ?_⟩
  · exact (parcels.trans h.apart).subset (List.mem_map_of_mem mem)
  · obtain ⟨i, w, found, mem⟩ := mem_settled mem
    obtain ⟨c, tale, closes⟩ := (h.workers i w found).settled x mem
    exact closes.honest tale truthful
  · rw [d.summary_eq, List.length_flatMap]
  · rw [d.summary_eq]
    show List.countP _ _ + List.countP _ _ = d.settled.length
    rw [List.length_eq_countP_add_countP (fun x => x.failure.isNone)]
    congr 2
    funext x
    cases x.failure <;> rfl

end Drain

/-! ## Batches that were given up -/

/-- A worker that has not settled a batch, and that gives it up if it has it in hand. -/
structure Worker.Forsakes (parcel : Parcel) (w : Worker) : Prop where
  unsettled : ∀ x ∈ w.settled, x.parcel ≠ parcel
  hand : w.phase.parcel? = some parcel → ∃ sending f,
    w.phase = .delivering parcel sending ∧ sending.result? = some (.failed f) ∧ f.isCancelled = true

/-- A batch that was received and that no worker will settle. -/
structure Drain.Forsakes (parcel : Parcel) (d : Drain) : Prop where
  received : parcel ∈ d.received.mapIdx Parcel.mk
  workers : ∀ w ∈ d.workers, w.Forsakes parcel

/-- A worker that gives a batch up never settles it. -/
theorem Scene.Move.forsakes {s : DeliverySettings} {seat : Seat} {old next : Scene} {parcel : Parcel}
    (m : old.Move s seat next) (h : old.worker.Forsakes parcel)
    (known : parcel.number < old.inbox.received.length) : next.worker.Forsakes parcel := by
  -- a worker that has the batch in hand is delivering it already
  have other : ∀ {w : Worker} {p : Parcel}, w.settled = old.worker.settled →
      old.worker.phase.parcel? = some p → old.worker.isDelivering = false →
      w.phase.parcel? = some p → w.Forsakes parcel := by
    intro w p settled holds idle same
    refine ⟨settled ▸ h.unsettled, fun hand => ?_⟩
    obtain rfl : p = parcel := Option.some.inj (same.symm.trans hand)
    obtain ⟨sending, f, phase, -⟩ := h.hand holds
    simp [Worker.isDelivering, phase] at idle
  have empty : ∀ {w : Worker}, w.settled = old.worker.settled → w.phase.parcel? = none → w.Forsakes parcel := by
    intro w settled noParcel
    refine ⟨settled ▸ h.unsettled, fun hand => ?_⟩
    rw [noParcel] at hand
    cases hand
  cases m with
  | leave phase signal => exact empty rfl rfl
  | listen phase off idle => exact empty rfl rfl
  | hangUp phase signal => exact empty rfl rfl
  | finish phase off got => exact empty rfl rfl
  | putDown phase signal => exact empty rfl rfl
  | withdraw phase signal => exact empty rfl rfl
  | receive phase off got =>
    refine ⟨h.unsettled, fun hand => ?_⟩
    cases hand
    exact absurd known (Nat.lt_irrefl _)
  | take phase off taken =>
    exact other rfl (by rw [phase]; rfl) (by simp [Worker.isDelivering, phase]) rfl
  | queue phase off none_free =>
    exact other rfl (by rw [phase]; rfl) (by simp [Worker.isDelivering, phase]) rfl
  | collect phase off given =>
    exact other rfl (by rw [phase]; rfl) (by simp [Worker.isDelivering, phase]) rfl
  | @conclude p sending result phase ends =>
    -- a batch that is settled did not end as cancelled
    have settles : ∀ attempts failure, (∀ f, result = .failed f → f.isCancelled = false) →
        Worker.Forsakes parcel
          { phase := .seeking, settled := ⟨p, attempts, failure⟩ :: old.worker.settled } := by
      intro attempts failure kept
      refine ⟨fun x mem => ?_, fun hand => by cases hand⟩
      rcases List.mem_cons.1 mem with rfl | mem
      · rintro rfl
        obtain ⟨sending', f, phase', ends', cancelled⟩ := h.hand (by rw [phase]; rfl)
        rw [phase] at phase'
        cases phase'
        rw [ends] at ends'
        cases ends'
        rw [kept f rfl] at cancelled
        cases cancelled
      · exact h.unsettled x mem
    cases result with
    | delivered n => exact settles n none (by rintro f same; cases same)
    | crashed => exact empty rfl rfl
    | failed f =>
      simp only [Scene.conclude]
      split
      · exact empty rfl rfl
      · rename_i kept
        refine settles f.attempts (some f) ?_
        rintro g same
        cases same
        exact Bool.eq_false_iff.2 kept
  | @go p sending following entries phase noResult move =>
    refine ⟨h.unsettled, fun hand => ?_⟩
    cases hand
    obtain ⟨sending', f, phase', ends, -⟩ := h.hand (by rw [phase]; rfl)
    rw [phase] at phase'
    cases phase'
    rw [noResult] at ends
    cases ends

/-- A worker takes a batch out of the channel and makes none. -/
theorem Scene.Move.content {s : DeliverySettings} {seat : Seat} {old next : Scene}
    (m : old.Move s seat next) : next.inbox.received.flatten ++ next.inbox.batches.items.flatten =
      old.inbox.received.flatten ++ old.inbox.batches.items.flatten := by
  cases m with
  | receive phase off got =>
    obtain ⟨rest, items, rfl⟩ := Channel.items_of_receive got
    rw [items]
    simp
  | conclude phase ends => rw [inbox_conclude]
  | _ => rfl

namespace Drain

variable {s : DeliverySettings} {number : Nat} {journal : Journal} {d e f : Drain} {parcel : Parcel}

/-- A batch whose delivery ended as cancelled is forsaken. -/
theorem Told.forsakes_cancelled (h : d.Told s number journal) {w : Worker} (mem : w ∈ d.workers)
    {sending : Sending} {f : DeliveryFailure} (phase : w.phase = .delivering parcel sending)
    (ends : sending.result? = some (.failed f)) (cancelled : f.isCancelled = true) : d.Forsakes parcel := by
  obtain ⟨i, worker⟩ := List.mem_iff_getElem?.1 mem
  have hand : w.phase.parcel? = some parcel := by
    rw [phase]
    rfl
  have mine : parcel ∈ w.parcels := List.mem_append_left _ (Option.mem_toList.2 hand)
  -- who else has the batch, in hand or settled, is this worker
  have other : ∀ v ∈ d.workers, parcel ∈ v.parcels → v = w := by
    intro v hv theirs
    obtain ⟨j, found⟩ := List.mem_iff_getElem?.1 hv
    obtain rfl := place_unique h.nodup worker found mine theirs
    rw [worker] at found
    exact (Option.some.inj found).symm
  refine ⟨h.apart.subset (List.mem_flatMap.2 ⟨w, mem, mine⟩), fun v hv => ⟨?_, fun theirs => ?_⟩⟩
  · rintro x hx rfl
    obtain rfl := other v hv (List.mem_append_right _ (List.mem_map_of_mem hx))
    have own := h.own worker
    simp only [Worker.parcels, hand, Option.toList, List.singleton_append, List.nodup_cons] at own
    exact own.1 (List.mem_map_of_mem hx)
  · obtain rfl := other v hv (List.mem_append_left _ (Option.mem_toList.2 theirs))
    exact ⟨sending, f, phase, ends, cancelled⟩

/-- A batch that nobody has any more is forsaken. -/
theorem forsakes_of_put_down (received : parcel ∈ d.received.mapIdx Parcel.mk)
    (gone : ∀ w ∈ d.workers, parcel ∉ w.parcels) : d.Forsakes parcel := by
  refine ⟨received, fun w hw => ⟨?_, fun hand => ?_⟩⟩
  · rintro x hx rfl
    exact gone w hw (List.mem_append_right _ (List.mem_map_of_mem hx))
  · exact absurd (List.mem_append_left _ (Option.mem_toList.2 hand)) (gone w hw)

theorem Forsakes.not_settled (h : d.Forsakes parcel) : ∀ x ∈ d.settled, x.parcel ≠ parcel := by
  intro x mem
  obtain ⟨i, w, found, mem⟩ := mem_settled mem
  exact (h.workers w (List.mem_of_getElem? found)).unsettled x mem

/-! ## What comes in -/

/-- The records that have come into a drain: those that its workers have received, and those on their
way. -/
def intake (d : Drain) : List Record := d.received.flatten ++ d.stages.left

/-- A drain at a later time: no record has come in, and no batch that was given up is taken up again. -/
structure Precedes (d e : Drain) : Prop where
  intake : ∀ r, e.intake.count r ≤ d.intake.count r
  forsaken : ∀ parcel, d.Forsakes parcel → e.Forsakes parcel

namespace Precedes

theorem refl (d : Drain) : d.Precedes d := ⟨fun _ => Nat.le_refl _, fun _ h => h⟩

theorem trans (h : d.Precedes e) (k : e.Precedes f) : d.Precedes f :=
  ⟨fun r => Nat.le_trans (k.intake r) (h.intake r), fun parcel p => k.forsaken parcel (h.forsaken parcel p)⟩

/-- A stage takes a step. -/
theorem stage {cancelled : Bool} {size : Nat} {stages : Pipeline} (m : d.stages.Move cancelled size stages) :
    d.Precedes { d with stages } := by
  refine ⟨fun r => ?_, fun parcel h => ⟨h.received, h.workers⟩⟩
  unfold Drain.intake
  rw [List.count_append, List.count_append]
  exact Nat.add_le_add_left (m.count_le r) _

/-- The drain returns. -/
theorem finish (d : Drain) (time : Time) :
    d.Precedes { d with returned := some time, stages := { d.stages with out := d.stages.out.drop } } := by
  refine ⟨fun r => ?_, fun parcel h => ⟨h.received, h.workers⟩⟩
  show (d.received.flatten ++ ([] ++ _)).count r ≤ (d.received.flatten ++ (d.stages.out.items.flatten ++ _)).count r
  simp only [List.nil_append, List.count_append]
  omega

/-- A worker takes a step. -/
theorem work {shared : Shared} {i : Nat} {w : Worker} {next : Scene} (worker : d.workers[i]? = some w)
    (move : (d.scene shared w).Move s ⟨number, i⟩ next) : d.Precedes (d.withScene i next) := by
  have content : next.inbox.received.flatten ++ next.inbox.batches.items.flatten =
      d.received.flatten ++ d.stages.out.items.flatten := move.content
  constructor
  · intro r
    refine Nat.le_of_eq (congrArg (List.count r) ?_)
    show next.inbox.received.flatten ++ (next.inbox.batches.items.flatten ++ _) =
      d.received.flatten ++ (d.stages.out.items.flatten ++ _)
    rw [← List.append_assoc, content, List.append_assoc]
    rfl
  · intro parcel h
    obtain ⟨k, hk, same⟩ := List.mem_mapIdx.1 h.received
    refine ⟨mem_mapIdx_mono move.handsOn.received_mono h.received, fun v hv => ?_⟩
    rcases List.mem_or_eq_of_mem_set hv with hv | rfl
    · exact h.workers v hv
    · refine move.forsakes (h.workers w (List.mem_of_getElem? worker)) ?_
      rw [← same]
      exact hk

end Precedes

/-- Of no record there is more in what was settled than has come in. -/
theorem Told.count_settled_le (h : d.Told s number journal) (r : Record) :
    (d.settled.flatMap (·.parcel.batch)).count r ≤ d.intake.count r := by
  obtain ⟨l, perm, sub⟩ := d.settled_subperm.trans h.apart
  have batches := sub.map (·.batch)
  rw [map_batch_mapIdx] at batches
  have records : (d.settled.flatMap (·.parcel.batch)).Perm (l.map (·.batch)).flatten := by
    rw [List.flatMap_def]
    have := (perm.map (·.batch)).flatten
    rw [List.map_map] at this
    exact this.symm
  rw [records.count_eq]
  unfold intake
  rw [List.count_append]
  exact Nat.le_trans (batches.flatten.count_le r) (Nat.le_add_right _ _)

end Drain

end Pool

end Telemetry
