/-
What becomes of the batches in the hands of workers while no signal comes. A worker takes a batch, posts
it at least once and settles it in the end; it loses none, it settles none twice, and it leaves only
when no batch will come any more.
-/
import Telemetry.Proofs.Pool.Move
import Telemetry.Proofs.Retry.Steady
import Telemetry.Proofs.Stage.Move
import Mathlib.Data.List.Perm.Basic

namespace Telemetry

open Pool (Scene Settled Worker)
open Retry (Call Policy)

/-- Deliveries that can only succeed or fail: every batch can be packed, every post is answered or hangs,
and the pauses are not too long for a span. -/
structure DeliverySettings.Works (s : DeliverySettings) : Prop where
  packs : ∀ b, ∃ envelope, s.pack b = .ok envelope
  answers : ∀ seen post, ∃ r, (s.transport seen post).answer = .result r
  fits : s.policy.fits = true

/-! ## Posts of a batch -/

namespace Journal

/-- Whether a drain has posted a batch. -/
def Posted (j : Journal) (drain : Nat) (parcel : Parcel) : Prop :=
  ∃ p ∈ j.posts, p.seat.drain = drain ∧ p.parcel = parcel

theorem Posted.append {j : Journal} {drain : Nat} {parcel : Parcel} (h : j.Posted drain parcel)
    (entries : Journal) : (entries ++ j).Posted drain parcel := by
  obtain ⟨p, mem, here⟩ := h
  refine ⟨p, ?_, here⟩
  unfold posts
  rw [List.filterMap_append]
  exact List.mem_append_right _ mem

theorem posted_begun {j : Journal} {drain : Nat} {parcel : Parcel} {post : Post}
    (mem : Entry.begun post ∈ j) (here : post.seat.drain = drain ∧ post.parcel = parcel) :
    j.Posted drain parcel :=
  ⟨post, List.mem_filterMap.2 ⟨_, mem, rfl⟩, here⟩

end Journal

/-! ## Deliveries -/

namespace Sending

/-- The posts that a delivery has begun. -/
def attempts : Sending → Nat
  | unpacked _ => 0
  | sending _ call _ => call.attempts

/-- A delivery that was packed and whose call is steady. -/
def Steady (p : Policy) : Sending → Prop
  | unpacked _ => False
  | sending _ call _ => call.Steady p

variable {settings : DeliverySettings} {now : Time} {journal entries : Journal} {seat : Seat}
  {parcel : Parcel} {old new : Sending}

theorem steady_ofBatch (works : settings.Works) (b : Batch) :
    (ofBatch settings b).Steady settings.policy ∧ (ofBatch settings b).attempts = 0 := by
  obtain ⟨envelope, packed⟩ := works.packs b
  unfold ofBatch
  rw [packed]
  exact ⟨Call.steady_initial _, rfl⟩

/-- A step keeps a delivery steady, and what has been begun has been posted. -/
theorem Move.steady (works : settings.Works) (m : Move settings now false journal seat parcel old new entries)
    (h : old.Steady settings.policy) (posted : 0 < old.attempts → journal.Posted seat.drain parcel) :
    new.Steady settings.policy ∧ (0 < new.attempts → (entries ++ journal).Posted seat.drain parcel) := by
  cases m with
  | become moves =>
    obtain ⟨steady, same⟩ := Call.Steady.become h works.fits moves
    exact ⟨steady, fun begun => (posted (Nat.lt_of_lt_of_eq begun same)).append _⟩
  | @begin _ _ _ _ _ _ _ post _ moves made goes seen =>
    obtain ⟨rfl, -⟩ := Call.ready_of_begin moves
    obtain ⟨r, answer⟩ := works.answers journal.posts post
    obtain rfl := goes
    refine ⟨(Call.Steady.begin h answer).1, fun _ => ?_⟩
    have begun : Entry.begun post ∈ entries := by
      rcases seen with ⟨-, rfl, -⟩ | ⟨-, -, rfl⟩
      · exact List.mem_cons_self
      · exact List.mem_cons_of_mem _ List.mem_cons_self
    have here : post.seat.drain = seat.drain ∧ post.parcel = parcel := by
      rw [made]
      exact ⟨rfl, rfl⟩
    exact Journal.posted_begun (List.mem_append_left _ begun) here

/-- A steady delivery that is over was posted, and its task lives. -/
theorem result_of_steady {p : Policy} {r : Result} (h : old.Steady p) (ends : old.result? = some r) :
    0 < old.attempts ∧ r ≠ .crashed ∧ ∀ f, r = .failed f → f.isCancelled = false := by
  cases old with
  | unpacked f => cases h
  | sending envelope call post =>
    cases h with
    | ready few => cases ends
    | attempting few => cases ends
    | pausing few => cases ends
    | @ended n r kept =>
      refine ⟨Nat.succ_pos n, ?_⟩
      cases r with
      | ok a =>
        cases ends
        exact ⟨Result.noConfusion, fun _ => Result.noConfusion⟩
      | error e =>
        cases ends
        refine ⟨Result.noConfusion, ?_⟩
        rintro f h
        cases h
        cases e with
        | cancelled m => exact absurd rfl (kept m)
        | nonRetriable m e => rfl
        | exhausted m e => rfl

end Sending

/-! ## Workers -/

namespace Pool

/-- The batch in the hands of a worker. -/
def Phase.parcel? : Phase → Option Parcel
  | .carrying parcel => some parcel
  | .queueing parcel => some parcel
  | .delivering parcel _ => some parcel
  | _ => none

/-- The batches that a worker has received: the one in its hands and those that it has settled. -/
def Worker.parcels (w : Worker) : List Parcel := w.phase.parcel?.toList ++ w.settled.map (·.parcel)

/-- A worker that still holds its batch, and has settled no other, has received no other. -/
theorem Worker.parcels_perm {w w' : Worker} (hand : w'.phase.parcel? = w.phase.parcel?)
    (same : w'.settled = w.settled) : w'.parcels.Perm w.parcels := by
  unfold parcels
  rw [hand, same]

/-- A worker that lives, that posts what it delivers, and that has posted what it has settled. -/
structure Worker.Diligent (p : Policy) (posted : Parcel → Prop) (w : Worker) : Prop where
  alive : w.phase ≠ .crashed
  steady : ∀ parcel sending, w.phase = .delivering parcel sending →
    sending.Steady p ∧ (0 < sending.attempts → posted parcel)
  settled : ∀ x ∈ w.settled, posted x.parcel

theorem Worker.Diligent.mono {p : Policy} {posted posted' : Parcel → Prop} {w : Worker}
    (h : w.Diligent p posted) (more : ∀ parcel, posted parcel → posted' parcel) : w.Diligent p posted' where
  alive := h.alive
  steady parcel sending phase :=
    ⟨(h.steady parcel sending phase).1, fun begun => more _ ((h.steady parcel sending phase).2 begun)⟩
  settled x mem := more _ (h.settled x mem)

/-- A worker that has settled no more than before and delivers nothing yet. -/
theorem Worker.Diligent.turn {p : Policy} {posted : Parcel → Prop} {w w' : Worker} (h : w.Diligent p posted)
    (alive : w'.phase ≠ .crashed) (idle : ∀ parcel sending, w'.phase ≠ .delivering parcel sending)
    (same : w'.settled = w.settled) : w'.Diligent p posted where
  alive := alive
  steady parcel sending phase := absurd phase (idle parcel sending)
  settled := by
    rw [same]
    exact h.settled

namespace Scene

variable {settings : DeliverySettings} {seat : Seat} {old next : Scene}

/-- After a steady delivery the worker settles the batch and looks for the next one. -/
theorem conclude_of_steady {p : Policy} {sending : Sending} {r : Sending.Result} (s : Scene) (parcel : Parcel)
    (h : sending.Steady p) (ends : sending.result? = some r) :
    ∃ attempts failure, (s.conclude parcel r).worker =
        { phase := .seeking, settled := ⟨parcel, attempts, failure⟩ :: s.worker.settled } ∧
      (s.conclude parcel r).inbox = s.inbox ∧ (s.conclude parcel r).shared.journal = s.shared.journal := by
  obtain ⟨-, lives, kept⟩ := Sending.result_of_steady h ends
  cases r with
  | delivered n => exact ⟨n, none, rfl, rfl, rfl⟩
  | crashed => exact absurd rfl lives
  | failed f =>
    have settles : ¬ f.isCancelled = true := by
      rw [kept f rfl]
      exact Bool.false_ne_true
    refine ⟨f.attempts, some f, ?_⟩
    rw [show s.conclude parcel (.failed f) = _ from if_neg settles]
    exact ⟨rfl, rfl, rfl⟩

/-- What a step of a worker does to the batches and to itself while no signal comes. -/
structure Kept (settings : DeliverySettings) (seat : Seat) (old next : Scene) : Prop where
  diligent : next.worker.Diligent settings.policy (next.shared.journal.Posted seat.drain)
  parcels : (∃ b rest, old.inbox.batches.items = b :: rest ∧
        next.inbox.batches = { old.inbox.batches with items := rest } ∧
        next.inbox.received = old.inbox.received ++ [b] ∧
        next.worker.parcels = ⟨old.inbox.received.length, b⟩ :: old.worker.parcels) ∨
      (next.inbox.batches = old.inbox.batches ∧ next.inbox.received = old.inbox.received ∧
        next.worker.parcels.Perm old.worker.parcels)
  ended : next.worker.phase = .ended →
    next.inbox.batches.items = [] ∧ next.inbox.batches.closed = true

/-- A worker that takes its permit up has a delivery before it of which nothing has been begun. -/
theorem kept_deliver (works : settings.Works)
    (h : old.worker.Diligent settings.policy (old.shared.journal.Posted seat.drain)) (permits : Permits)
    {parcel : Parcel} (holds : old.worker.phase.parcel? = some parcel) :
    Kept settings seat old ((old.withPermits permits).deliver settings parcel) := by
  obtain ⟨steady, unbegun⟩ := Sending.steady_ofBatch works parcel.batch
  refine ⟨⟨Phase.noConfusion, ?_, h.settled⟩, .inr ⟨rfl, rfl, ?_⟩, Phase.noConfusion⟩
  · rintro _ _ phase
    cases phase
    refine ⟨steady, fun begun => ?_⟩
    rw [unbegun] at begun
    cases begun
  · exact Worker.parcels_perm holds.symm rfl

/-- While no signal comes, a worker loses no batch and posts each one that it settles. -/
theorem Move.kept (works : settings.Works) (m : old.Move settings seat next)
    (signal : old.shared.cancelled = false)
    (h : old.worker.Diligent settings.policy (old.shared.journal.Posted seat.drain)) :
    Kept settings seat old next := by
  have quiet : ¬ old.shared.cancelled = true := by
    rw [signal]
    exact Bool.false_ne_true
  cases m with
  | leave phase cancel => exact absurd cancel quiet
  | hangUp phase cancel => exact absurd cancel quiet
  | putDown phase cancel => exact absurd cancel quiet
  | withdraw phase cancel => exact absurd cancel quiet
  | listen phase _ idle =>
    refine ⟨h.turn Phase.noConfusion (fun _ _ => Phase.noConfusion) rfl, .inr ⟨rfl, rfl, ?_⟩,
      Phase.noConfusion⟩
    exact Worker.parcels_perm (by rw [phase]; rfl) rfl
  | receive phase _ got =>
    obtain ⟨rest, items, rfl⟩ := Channel.items_of_receive got
    refine ⟨h.turn Phase.noConfusion (fun _ _ => Phase.noConfusion) rfl,
      .inl ⟨_, rest, items, rfl, rfl, ?_⟩, Phase.noConfusion⟩
    unfold Worker.parcels
    rw [phase]
    rfl
  | finish phase _ got =>
    refine ⟨h.turn Phase.noConfusion (fun _ _ => Phase.noConfusion) rfl, .inr ⟨rfl, rfl, ?_⟩,
      fun _ => Channel.finished_of_receive got⟩
    exact Worker.parcels_perm (by rw [phase]; rfl) rfl
  | take phase _ taken => exact kept_deliver works h _ (by rw [phase]; rfl)
  | collect phase _ given => exact kept_deliver works h _ (by rw [phase]; rfl)
  | queue phase _ none_free =>
    refine ⟨h.turn Phase.noConfusion (fun _ _ => Phase.noConfusion) rfl, .inr ⟨rfl, rfl, ?_⟩,
      Phase.noConfusion⟩
    exact Worker.parcels_perm (by rw [phase]; rfl) rfl
  | @conclude parcel sending result phase ends =>
    -- a steady delivery ends after a post, so the batch that is settled was posted
    obtain ⟨steady, posted⟩ := h.steady parcel sending phase
    obtain ⟨begun, -⟩ := Sending.result_of_steady steady ends
    obtain ⟨attempts, failure, worker, inbox, journal⟩ := conclude_of_steady old parcel steady ends
    refine ⟨?_, .inr ⟨?_, ?_, ?_⟩, ?_⟩
    · rw [worker, journal]
      refine ⟨Phase.noConfusion, fun _ _ => Phase.noConfusion, fun x mem => ?_⟩
      rcases List.mem_cons.1 mem with rfl | mem
      · exact posted begun
      · exact h.settled x mem
    · rw [inbox]
    · rw [inbox]
    · rw [worker]
      unfold Worker.parcels
      rw [phase]
      exact .refl _
    · rw [worker]
      exact Phase.noConfusion
  | go phase noResult move =>
    obtain ⟨steady, posted⟩ := h.steady _ _ phase
    rw [signal] at move
    obtain ⟨steady', posted'⟩ := move.steady works steady posted
    refine ⟨⟨Phase.noConfusion, ?_, fun x mem => (h.settled x mem).append _⟩, .inr ⟨rfl, rfl, ?_⟩,
      Phase.noConfusion⟩
    · rintro _ _ phase'
      cases phase'
      exact ⟨steady', posted'⟩
    · exact Worker.parcels_perm (by rw [phase]; rfl) rfl

end Scene

end Pool

end Telemetry
