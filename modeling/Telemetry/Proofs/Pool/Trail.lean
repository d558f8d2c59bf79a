/-
What the journal tells of the batches of a drain. The entries about one batch, taken out of all others,
are the tale of one delivery, by the worker that received it (`Worker.Told`); a step of a worker writes
about the batch in its hands and about no other one (`Scene.Move.told`).
-/
import Mathlib.Data.List.Nodup
import Telemetry.Proofs.Delivery.Tale
import Telemetry.Proofs.Pool.Diligence

namespace Telemetry

/-! ## The entries about one batch -/

/-- Whether an entry tells of a batch of a drain. -/
def Entry.isAbout (drain : Nat) (parcel : Parcel) (e : Entry) : Bool :=
  e.post?.any fun post => post.seat.drain == drain && post.parcel == parcel

/-- What holds of some post of an entry holds of its post. -/
theorem Entry.of_post? {e : Entry} {q : Post} {p : Post → Prop} (h : ∃ r, e.post? = some r ∧ p r)
    (post : e.post? = some q) : p q := by
  obtain ⟨r, same, holds⟩ := h
  rw [post] at same
  cases same
  exact holds

namespace Journal

/-- The entries about a batch of a drain, the latest first. -/
def trail (j : Journal) (drain : Nat) (parcel : Parcel) : Journal := j.filter (·.isAbout drain parcel)

variable {j entries : Journal} {drain : Nat} {parcel : Parcel}

theorem trail_append (entries j : Journal) (drain : Nat) (parcel : Parcel) :
    (entries ++ j).trail drain parcel = entries.trail drain parcel ++ j.trail drain parcel :=
  List.filter_append _ _

theorem trail_eq_nil (h : ∀ e ∈ j, ∀ q, e.post? = some q → ¬(q.seat.drain = drain ∧ q.parcel = parcel)) :
    j.trail drain parcel = [] := by
  refine List.filter_eq_nil_iff.2 fun e he about => ?_
  obtain ⟨q, post, here⟩ := (Option.any_eq_true _ _).1 about
  exact h e he q post (by simpa using here)

/-- What is written down about other batches is not part of the trail of this one. -/
theorem trail_append_of_apart
    (h : ∀ e ∈ entries, ∀ q, e.post? = some q → ¬(q.seat.drain = drain ∧ q.parcel = parcel)) (j : Journal) :
    (entries ++ j).trail drain parcel = j.trail drain parcel := by
  rw [trail_append, trail_eq_nil h, List.nil_append]

theorem trail_eq_self (h : ∀ e ∈ j, ∃ q, e.post? = some q ∧ q.seat.drain = drain ∧ q.parcel = parcel) :
    j.trail drain parcel = j := by
  refine List.filter_eq_self.2 fun e he => ?_
  obtain ⟨q, post, here⟩ := h e he
  simp [Entry.isAbout, post, here]

end Journal

namespace Pool

/-! ## Batches in hand -/

/-- Whether a batch was settled with what its delivery came to. -/
def Settled.Closes (x : Settled) (d : Sending) : Prop :=
  (x.failure = none ∧ d.result? = some (.delivered x.attempts)) ∨
    ∃ f, x.failure = some f ∧ x.attempts = f.attempts ∧ f.isCancelled = false ∧ d.result? = some (.failed f)

/-- What the journal tells of the batches of a worker: nothing yet of one that it carries, and the tale of
a delivery of the one that it delivers and of each that it has settled. -/
structure Worker.Told (s : DeliverySettings) (seat : Seat) (trail : Parcel → Journal) (w : Worker) : Prop where
  fresh : ∀ parcel, w.phase.parcel? = some parcel → w.isDelivering = false → trail parcel = []
  tale : ∀ parcel d, w.phase = .delivering parcel d → d.Tale s seat parcel (trail parcel)
  settled : ∀ x ∈ w.settled, ∃ d, d.Tale s seat x.parcel (trail x.parcel) ∧ x.Closes d

variable {s : DeliverySettings} {seat : Seat} {w : Worker} {trail trail' : Parcel → Journal}

/-- What is told of a worker stays as it is while nothing new is told of its batches. -/
theorem Worker.Told.congr (h : w.Told s seat trail) (same : ∀ parcel ∈ w.parcels, trail' parcel = trail parcel) :
    w.Told s seat trail' := by
  have inHand : ∀ parcel, w.phase.parcel? = some parcel → parcel ∈ w.parcels := by
    intro parcel hand
    simp [Worker.parcels, hand]
  constructor
  · intro parcel hand idle
    rw [same parcel (inHand parcel hand)]
    exact h.fresh parcel hand idle
  · intro parcel d phase
    rw [same parcel (inHand parcel (by rw [phase]; rfl))]
    exact h.tale parcel d phase
  · intro x mem
    rw [same x.parcel (List.mem_append_right _ (List.mem_map_of_mem mem))]
    exact h.settled x mem

namespace Scene

variable {old next : Scene}

/-- Whether a worker receives a batch, or receives none and has no others than before. -/
def HandsOn (old next : Scene) : Prop :=
  (∃ b, next.inbox.received = old.inbox.received ++ [b] ∧
      next.worker.parcels = ⟨old.inbox.received.length, b⟩ :: old.worker.parcels) ∨
    (next.inbox.received = old.inbox.received ∧ next.worker.parcels.Sublist old.worker.parcels)

theorem HandsOn.received_mono (h : HandsOn old next) : old.inbox.received <+: next.inbox.received := by
  rcases h with ⟨b, received, -⟩ | ⟨received, -⟩
  · exact ⟨[b], received.symm⟩
  · exact ⟨[], by rw [List.append_nil]; exact received.symm⟩

theorem Move.handsOn (m : old.Move s seat next) : HandsOn old next := by
  -- a worker that settles no more than before and has no other batch in hand
  have turn : next.inbox.received = old.inbox.received → next.worker.settled = old.worker.settled →
      next.worker.phase.parcel?.toList.Sublist old.worker.phase.parcel?.toList → HandsOn old next := by
    intro received settled hand
    refine .inr ⟨received, ?_⟩
    unfold Worker.parcels
    rw [settled]
    exact hand.append_right _
  cases m with
  | receive phase off got => exact .inl ⟨_, rfl, by simp [Worker.parcels, withPhase, phase, Phase.parcel?]⟩
  | @conclude parcel sending result phase ends =>
    refine .inr ⟨by rw [inbox_conclude], ?_⟩
    unfold Worker.parcels
    rw [phase]
    cases result with
    | delivered n => exact .refl _
    | crashed => exact (List.nil_sublist _).append_right _
    | failed f =>
      simp only [Scene.conclude]
      split
      · exact (List.nil_sublist _).append_right _
      · exact .refl _
  | leave phase signal => exact turn rfl rfl (List.nil_sublist _)
  | listen phase off idle => exact turn rfl rfl (List.nil_sublist _)
  | hangUp phase signal => exact turn rfl rfl (List.nil_sublist _)
  | finish phase off got => exact turn rfl rfl (List.nil_sublist _)
  | putDown phase signal => exact turn rfl rfl (List.nil_sublist _)
  | withdraw phase signal => exact turn rfl rfl (List.nil_sublist _)
  | take phase off taken => exact turn rfl rfl (by rw [phase]; exact .refl _)
  | queue phase off none_free => exact turn rfl rfl (by rw [phase]; exact .refl _)
  | collect phase off given => exact turn rfl rfl (by rw [phase]; exact .refl _)
  | go phase noResult move => exact turn rfl rfl (by rw [phase]; exact .refl _)

/-- What a step of a worker makes the journal tell: what was told before, and what is new about the batch
in its hands. -/
structure Tells (s : DeliverySettings) (seat : Seat) (old next : Scene) : Prop where
  told : next.worker.Told s seat (next.shared.journal.trail seat.drain)
  journal : ∃ entries, next.shared.journal = entries ++ old.shared.journal ∧
    ∀ e ∈ entries, ∃ q, e.post? = some q ∧ q.seat = seat ∧ old.worker.phase.parcel? = some q.parcel

/-- A worker that writes nothing down and delivers nothing. -/
theorem tells_of_idle (h : old.worker.Told s seat (old.shared.journal.trail seat.drain))
    (journal : next.shared.journal = old.shared.journal) (same : next.worker.settled = old.worker.settled)
    (idle : next.worker.isDelivering = false)
    (fresh : ∀ parcel, next.worker.phase.parcel? = some parcel →
      old.shared.journal.trail seat.drain parcel = []) : Tells s seat old next := by
  refine ⟨?_, [], journal, by simp⟩
  rw [journal]
  refine ⟨fun parcel hand _ => fresh parcel hand, fun parcel d phase => ?_, ?_⟩
  · simp [Worker.isDelivering, phase] at idle
  · rw [same]
    exact h.settled

theorem tells_deliver (h : old.worker.Told s seat (old.shared.journal.trail seat.drain)) (permits : Permits)
    {parcel : Parcel} (holds : old.worker.phase.parcel? = some parcel) (idle : old.worker.isDelivering = false) :
    Tells s seat old ((old.withPermits permits).deliver s parcel) := by
  refine ⟨⟨fun p _ delivers => ?_, ?_, h.settled⟩, [], rfl, by simp⟩
  · cases delivers
  · rintro p d phase
    cases phase
    show (Sending.ofBatch s parcel.batch).Tale s seat parcel (old.shared.journal.trail seat.drain parcel)
    rw [h.fresh parcel holds idle]
    exact Sending.tale_ofBatch s seat parcel

/-- A worker that settles the batch in its hands. -/
theorem tells_settle (h : old.worker.Told s seat (old.shared.journal.trail seat.drain)) {x : Settled}
    (told : ∃ d, d.Tale s seat x.parcel (old.shared.journal.trail seat.drain x.parcel) ∧ x.Closes d)
    (permits : Permits) :
    Tells s seat old { old.withPermits permits with
      worker := { phase := .seeking, settled := x :: old.worker.settled } } := by
  refine ⟨⟨by simp [Phase.parcel?], by simp, fun y mem => ?_⟩, [], rfl, by simp⟩
  rcases List.mem_cons.1 mem with rfl | mem
  · exact told
  · exact h.settled y mem

/-- A step of a worker tells on of the batch in its hands, and of no other one. -/
theorem Move.told (m : old.Move s seat next)
    (h : old.worker.Told s seat (old.shared.journal.trail seat.drain))
    (new : ∀ b, old.shared.journal.trail seat.drain ⟨old.inbox.received.length, b⟩ = [])
    (apart : old.worker.parcels.Nodup) : Tells s seat old next := by
  cases m with
  | leave phase signal => exact tells_of_idle h rfl rfl rfl (by simp [withPhase, Phase.parcel?])
  | listen phase off idle => exact tells_of_idle h rfl rfl rfl (by simp [withPhase, Phase.parcel?])
  | hangUp phase signal => exact tells_of_idle h rfl rfl rfl (by simp [withPhase, Phase.parcel?])
  | finish phase off got => exact tells_of_idle h rfl rfl rfl (by simp [withPhase, Phase.parcel?])
  | putDown phase signal => exact tells_of_idle h rfl rfl rfl (by simp [withPhase, Phase.parcel?])
  | withdraw phase signal => exact tells_of_idle h rfl rfl rfl (by simp [withPhase, Phase.parcel?])
  | receive phase off got =>
    refine tells_of_idle h rfl rfl rfl ?_
    rintro parcel hand
    cases hand
    exact new _
  | queue phase off none_free =>
    refine tells_of_idle h rfl rfl rfl ?_
    rintro parcel hand
    cases hand
    exact h.fresh _ (by rw [phase]; rfl) (by simp [Worker.isDelivering, phase])
  | take phase off taken =>
    exact tells_deliver h _ (by rw [phase]; rfl) (by simp [Worker.isDelivering, phase])
  | collect phase off given =>
    exact tells_deliver h _ (by rw [phase]; rfl) (by simp [Worker.isDelivering, phase])
  | @conclude parcel sending result phase ends =>
    have tale := h.tale parcel sending phase
    cases result with
    | delivered n => exact tells_settle h ⟨sending, tale, .inl ⟨rfl, ends⟩⟩ _
    | crashed => exact tells_of_idle h rfl rfl rfl (by simp [Scene.conclude, withPhase, Phase.parcel?])
    | failed f =>
      simp only [Scene.conclude]
      split
      · exact tells_of_idle h rfl rfl rfl (by simp [withPhase, Phase.parcel?])
      · rename_i kept
        exact tells_settle h ⟨sending, tale, .inr ⟨f, rfl, rfl, by simpa using kept, ends⟩⟩ _
  | @go parcel sending following entries phase noResult move =>
    obtain ⟨tale, here⟩ := move.tale (h.tale parcel sending phase)
    have same : (entries ++ old.shared.journal).trail seat.drain parcel =
        entries ++ old.shared.journal.trail seat.drain parcel := by
      rw [Journal.trail_append, Journal.trail_eq_self fun e he => ?_]
      obtain ⟨q, post, ours, about⟩ := here e he
      exact ⟨q, post, by rw [ours], about⟩
    refine ⟨⟨fun p _ delivers => ?_, ?_, fun x mem => ?_⟩, entries, rfl, fun e he => ?_⟩
    · cases delivers
    · rintro p d phase'
      cases phase'
      rw [← same] at tale
      exact tale
    · -- a batch that was settled is not the one in hand
      have others : x.parcel ≠ parcel := by
        rintro rfl
        simp only [Worker.parcels, phase, Phase.parcel?, Option.toList, List.singleton_append,
          List.nodup_cons] at apart
        exact apart.1 (List.mem_map_of_mem mem)
      obtain ⟨d, told, closes⟩ := h.settled x mem
      refine ⟨d, ?_, closes⟩
      show d.Tale s seat x.parcel ((entries ++ old.shared.journal).trail seat.drain x.parcel)
      rw [Journal.trail_append_of_apart]
      · exact told
      · rintro e he q post ⟨-, about⟩
        obtain ⟨-, inHand⟩ := Entry.of_post? (here e he) post
        exact others (about.symm.trans inHand)
    · obtain ⟨q, post, ours, about⟩ := here e he
      exact ⟨q, post, ours, by rw [phase, ← about]; rfl⟩

end Scene

end Pool

end Telemetry
