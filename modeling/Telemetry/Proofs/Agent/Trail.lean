/-
What the journal of an agent tells of every batch, in any run and with the signal at any moment: the
entries about a batch are the tale of one delivery, by the one worker that received it (`Agent.Told`). No
worker has a batch that another one of its drain has received, and a drain writes nothing about the
batches of another one, so what one worker does adds to the tale of the batch in its hands alone.
-/
import Telemetry.Proofs.Agent.Crew
import Telemetry.Proofs.Pool.Tended
import Telemetry.Proofs.Pool.Trail

namespace Telemetry

open Pool (Drain Scene Worker)

namespace Pool

theorem nodup_mapIdx (l : List Batch) : (l.mapIdx Parcel.mk).Nodup := by
  refine List.Nodup.of_map (·.number) ?_
  rw [map_number_mapIdx]
  exact List.nodup_range

/-- An item that two places of a list give is given by one place. -/
theorem place_unique {α β : Type} {f : α → List β} {l : List α} (nodup : (l.flatMap f).Nodup) {i j : Nat}
    {x y : α} {b : β} (found : l[i]? = some x) (other : l[j]? = some y) (mem : b ∈ f x) (mem' : b ∈ f y) :
    i = j := by
  obtain ⟨hi, rfl⟩ := List.getElem?_eq_some_iff.1 found
  obtain ⟨hj, rfl⟩ := List.getElem?_eq_some_iff.1 other
  have apart := List.pairwise_iff_getElem.1 (List.nodup_flatMap.1 nodup).2
  rcases Nat.lt_trichotomy i j with before | same | behind
  · exact absurd mem' (apart i j hi hj before mem)
  · exact same
  · exact absurd mem (apart j i hj hi behind mem')

namespace Drain

/-- What the journal tells of the batches of a drain: of each worker what it has done with its own ones,
and no batch is in the hands of two. -/
structure Told (s : DeliverySettings) (number : Nat) (journal : Journal) (d : Drain) : Prop where
  workers : ∀ (i : Nat) (w : Worker), d.workers[i]? = some w → w.Told s ⟨number, i⟩ (journal.trail number)
  apart : (d.workers.flatMap (·.parcels)).Subperm (d.received.mapIdx Parcel.mk)

variable {s : DeliverySettings} {number : Nat} {journal journal' : Journal} {d : Drain}

theorem told_ofStages (s : DeliverySettings) (number : Nat) (journal : Journal) (workers : Nat)
    (stages : Stage.Pipeline) : (ofStages workers stages).Told s number journal := by
  refine ⟨fun i w found => ?_, (Tended.ofStages s.policy number journal workers stages).parcels.subperm⟩
  rw [List.eq_of_mem_replicate (List.mem_of_getElem? found)]
  exact ⟨by simp [Phase.parcel?], by simp, by simp⟩

namespace Told

theorem mono (h : d.Told s number journal)
    (same : ∀ parcel, journal'.trail number parcel = journal.trail number parcel) :
    d.Told s number journal' :=
  ⟨fun i w found => (h.workers i w found).congr fun parcel _ => same parcel, h.apart⟩

/-- A stage takes a step. -/
theorem stage (h : d.Told s number journal) (stages : Stage.Pipeline) :
    ({ d with stages } : Drain).Told s number journal :=
  ⟨h.workers, h.apart⟩

/-- The drain returns. -/
theorem finish (h : d.Told s number journal) (time : Time) :
    ({ d with returned := some time, stages := { d.stages with out := d.stages.out.drop } } :
      Drain).Told s number journal :=
  ⟨h.workers, h.apart⟩

theorem nodup (h : d.Told s number journal) : (d.workers.flatMap (·.parcels)).Nodup := by
  obtain ⟨l, perm, sub⟩ := h.apart
  exact perm.nodup_iff.1 (sub.nodup (nodup_mapIdx _))

theorem own (h : d.Told s number journal) {i : Nat} {w : Worker} (worker : d.workers[i]? = some w) :
    w.parcels.Nodup :=
  (List.nodup_flatMap.1 h.nodup).1 w (List.mem_of_getElem? worker)

/-- A worker takes a step. -/
theorem work (h : d.Told s number journal) {shared : Shared} (here : shared.journal = journal) {i : Nat}
    {w : Worker} {next : Scene} (worker : d.workers[i]? = some w)
    (move : (d.scene shared w).Move s ⟨number, i⟩ next)
    (new : ∀ b, journal.trail number ⟨d.received.length, b⟩ = []) :
    (d.withScene i next).Told s number next.shared.journal := by
  subst here
  obtain ⟨w₁, w₂, parts, rfl, set⟩ := split_at_getElem? worker
  obtain ⟨told, entries, journal, about⟩ := move.told (h.workers _ w worker) new (h.own worker)
  constructor
  · intro j v found
    have found : (d.workers.set w₁.length next.worker)[j]? = some v := found
    rw [List.getElem?_set] at found
    split at found
    · rename_i same
      split at found
      · cases found
        exact same ▸ told
      · cases found
    · -- another worker has none of the batches of this one
      rename_i other
      refine (h.workers j v found).congr fun parcel mem => ?_
      rw [journal, Journal.trail_append_of_apart]
      · rfl
      · rintro e he q post ⟨-, rfl⟩
        obtain ⟨-, hand⟩ := Entry.of_post? (about e he) post
        have mine : q.parcel ∈ w.parcels := List.mem_append_left _ (Option.mem_toList.2 hand)
        exact other (place_unique h.nodup worker found mine mem)
  · have workers : (d.withScene w₁.length next).workers = w₁ ++ next.worker :: w₂ := set _
    have before := h.apart
    rw [parts, List.flatMap_append, List.flatMap_cons] at before
    rw [workers, List.flatMap_append, List.flatMap_cons]
    rcases move.handsOn with ⟨b, received, parcels⟩ | ⟨received, parcels⟩
    · show List.Subperm _ (next.inbox.received.mapIdx Parcel.mk)
      rw [received, parcels, List.mapIdx_concat, List.cons_append]
      exact (List.perm_middle.subperm.trans ((List.subperm_cons _).2 before)).trans
        (List.perm_append_singleton _ _).symm.subperm
    · show List.Subperm _ (next.inbox.received.mapIdx Parcel.mk)
      rw [received]
      exact ((parcels.append_right _).append_left _).subperm.trans before

end Told

end Drain

end Pool

namespace Agent

variable {s : AgentSettings} {a b : Agent}

/-- An agent whose journal tells of each batch of each drain what was done with it, and of no batch that
was not received. -/
structure Told (s : DeliverySettings) (a : Agent) : Prop where
  known : ∀ e ∈ a.shared.journal, ∀ q, e.post? = some q →
    ∃ d, a.drains[q.seat.drain]? = some d ∧ q.parcel ∈ d.received.mapIdx Parcel.mk
  drains : ∀ n (d : Drain), a.drains[n]? = some d → d.Told s n a.shared.journal

theorem told_initial (s : DeliverySettings) (workers : Nat) (sampler : Sampling.Sampler) :
    (initial workers sampler).Told s :=
  ⟨by simp [initial], by simp [initial]⟩

namespace Told

/-- Of the next batch that a drain receives nothing has been told yet. -/
theorem new (h : a.Told s.delivery) {n : Nat} {d : Drain} (found : a.drains[n]? = some d) (b : Batch) :
    a.shared.journal.trail n ⟨d.received.length, b⟩ = [] := by
  refine Journal.trail_eq_nil ?_
  rintro e he q post ⟨rfl, same⟩
  obtain ⟨d', found', mem⟩ := h.known e he q post
  obtain rfl : d = d' := by simpa [found] using found'
  obtain ⟨i, hi, heq⟩ := List.mem_mapIdx.1 mem
  rw [same] at heq
  cases heq
  exact absurd hi (Nat.lt_irrefl _)

/-- Something is written down that tells of no post, and drains are started. -/
theorem start (h : a.Told s.delivery) (entries : Journal) (started : List Drain)
    (silent : ∀ e ∈ entries, e.post? = none)
    (fresh : ∀ d ∈ started, ∃ stages, d = Drain.ofStages s.workers stages)
    (drains : b.drains = a.drains ++ started) (journal : b.shared.journal = entries ++ a.shared.journal) :
    b.Told s.delivery := by
  have same : ∀ n parcel, b.shared.journal.trail n parcel = a.shared.journal.trail n parcel := by
    intro n parcel
    rw [journal, Journal.trail_append_of_apart]
    intro e he q post
    rw [silent e he] at post
    cases post
  constructor
  · rw [journal, drains]
    intro e he q post
    rcases List.mem_append.1 he with he | he
    · rw [silent e he] at post
      cases post
    · obtain ⟨d, found, mem⟩ := h.known e he q post
      refine ⟨d, ?_, mem⟩
      rw [List.getElem?_append_left (List.getElem?_eq_some_iff.1 found).1]
      exact found
  · rw [drains]
    intro n d found
    rw [List.getElem?_append] at found
    split at found
    · exact (h.drains n d found).mono (same n)
    · obtain ⟨stages, rfl⟩ := fresh d (List.mem_of_getElem? found)
      exact Drain.told_ofStages _ _ _ _ _

/-- One drain is exchanged for another one that has received as much, and what is written down tells of
its batches. -/
theorem set (h : a.Told s.delivery) {n : Nat} {d d' : Drain} {shared : Pool.Shared} {entries : Journal}
    (found : a.drains[n]? = some d) (more : d.received <+: d'.received)
    (journal : shared.journal = entries ++ a.shared.journal)
    (about : ∀ e ∈ entries, ∃ q, e.post? = some q ∧ q.seat.drain = n ∧ q.parcel ∈ d.received.mapIdx Parcel.mk)
    (here : d'.Told s.delivery n shared.journal) :
    ({ a with shared, drains := a.drains.set n d' } : Agent).Told s.delivery := by
  have place : (a.drains.set n d')[n]? = some d' := by
    rw [List.getElem?_set_self (List.getElem?_eq_some_iff.1 found).1]
  constructor
  · show ∀ e ∈ shared.journal, ∀ q, e.post? = some q → ∃ x, (a.drains.set n d')[q.seat.drain]? = some x ∧ _
    rw [journal]
    intro e he q post
    rcases List.mem_append.1 he with he | he
    · obtain ⟨ours, mem⟩ := Entry.of_post? (about e he) post
      rw [ours]
      exact ⟨d', place, Pool.mem_mapIdx_mono more mem⟩
    · obtain ⟨x, found', mem⟩ := h.known e he q post
      by_cases same : n = q.seat.drain
      · subst same
        obtain rfl : d = x := by simpa [found] using found'
        exact ⟨d', place, Pool.mem_mapIdx_mono more mem⟩
      · refine ⟨x, ?_, mem⟩
        rw [List.getElem?_set_ne same]
        exact found'
  · intro m x found'
    have found' : (a.drains.set n d')[m]? = some x := found'
    by_cases same : n = m
    · subst same
      obtain rfl : d' = x := by simpa [place] using found'
      exact here
    · rw [List.getElem?_set_ne same] at found'
      refine (h.drains m x found').mono fun parcel => ?_
      show shared.journal.trail m parcel = _
      rw [journal, Journal.trail_append_of_apart]
      rintro e he q post ⟨elsewhere, -⟩
      obtain ⟨here, -⟩ := Entry.of_post? (about e he) post
      exact same (here.symm.trans elsewhere)

/-- Whatever happens, the journal goes on telling of every batch. -/
theorem next (h : a.Told s.delivery) {e : Event} (change : Change s a e b) : b.Told s.delivery := by
  have nothing : ∀ e ∈ ([] : Journal), e.post? = none := by simp
  have nobody : ∀ d ∈ ([] : List Drain), ∃ stages, d = Drain.ofStages s.workers stages := by simp
  cases change with
  | polled collects course => exact h.start [_] [] (by simp [Entry.post?]) nobody (List.append_nil _).symm rfl
  | reported collects course => exact h.start [_] [_] (by simp [Entry.post?]) (by simp) rfl rfl
  | turned collects course => exact h.start [] [] nothing nobody (List.append_nil _).symm rfl
  | waited time => exact h.start [] [] nothing nobody (List.append_nil _).symm rfl
  | cancelled => exact h.start [] [] nothing nobody (List.append_nil _).symm rfl
  | discarded => exact h.start [] [] nothing nobody (List.append_nil _).symm rfl
  | opened stages => exact h.start [] [_] nothing (by simp) rfl rfl
  | fed found step => exact h.start [] [] nothing nobody (List.append_nil _).symm rfl
  | staged found step =>
    exact h.set found (List.prefix_refl _) (List.nil_append _).symm (by simp) ((h.drains _ _ found).stage _)
  | @worked n i d w next found worker step =>
    have here := h.drains _ _ found
    have move := Scene.move_of_step step
    obtain ⟨-, entries, journal, about⟩ := move.told (here.workers _ w worker) (h.new found) (here.own worker)
    refine h.set found move.handsOn.received_mono journal (fun e he => ?_)
      (here.work rfl worker move (h.new found))
    obtain ⟨q, post, ours, hand⟩ := about e he
    refine ⟨q, post, by rw [ours], here.apart.subset (List.mem_flatMap.2 ⟨w, List.mem_of_getElem? worker, ?_⟩)⟩
    exact List.mem_append_left _ (Option.mem_toList.2 hand)
  | returned found first ends =>
    exact h.set found (List.prefix_refl _) (List.nil_append _).symm (by simp) ((h.drains _ _ found).finish _)

end Told

end Agent

end Telemetry
