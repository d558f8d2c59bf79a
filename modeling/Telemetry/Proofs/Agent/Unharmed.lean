/-
Agents whose tasks all last. A delivery breaks off when a post takes its task along or when a span cannot
hold its next pause, and a batcher when there is no room for a whole batch; nothing else does. Where
every post is answered or hangs, the pauses fit a span and the batches fit the memory, no task of the
agent breaks off, in whatever order they take their steps and whenever the signal comes.
-/
import Telemetry.Proofs.Agent.Crew
import Telemetry.Proofs.Retry.Steady

namespace Telemetry

open Pool (Drain Permits Scene Worker)
open Retry (Call Policy)
open Stage (Batcher)

/-- Every post is answered or hangs; none takes the task along that has begun it. -/
def Transport.Lasts (t : Transport) : Prop := ∀ seen post, ∃ r, (t seen post).answer = .result r

/-! ## Deliveries -/

namespace Retry.Call

variable {ε α : Type} {p : Policy} {classify : ε → Class} {now : Time} {cancelled : Bool}
  {call next : Call ε α}

/-- A call that goes on steadily or has come to a result. -/
def Lasts (p : Policy) (call : Call ε α) : Prop := call.Steady p ∨ ∃ n r, call = .ended n r

theorem Lasts.become (h : call.Lasts p) (fits : p.fits = true)
    (moves : call.move p classify now cancelled = .become next) : next.Lasts p := by
  cases cancelled with
  | true =>
    cases become_of_move moves with
    | give_up stillGoing alive => exact .inr ⟨_, _, rfl⟩
  | false =>
    rcases h with steady | ⟨n, r, rfl⟩
    · exact .inl (steady.become fits moves).1
    · cases moves

theorem Lasts.begin {n : Nat} {pause : Span} (h : (Call.ready n pause : Call ε α).Lasts p)
    {reply : Reply ε α} {r : Except ε α} (answer : reply.answer = .result r) :
    (Call.begin p classify now n pause reply).Lasts p := by
  rcases h with steady | ⟨m, r, same⟩
  · exact .inl (steady.begin answer).1
  · cases same

theorem Lasts.ne_crashed (h : call.Lasts p) (n : Nat) : call ≠ .crashed n := by
  rintro rfl
  rcases h with steady | ⟨m, r, same⟩
  · cases steady
  · cases same

end Retry.Call

namespace Sending

variable {settings : DeliverySettings} {now : Time} {cancelled : Bool} {journal entries : Journal}
  {seat : Seat} {parcel : Parcel} {old new : Sending}

/-- A delivery that goes on, or has come to a result. -/
def Lasts (p : Policy) : Sending → Prop
  | unpacked _ => True
  | sending _ call _ => call.Lasts p

theorem lasts_ofBatch (settings : DeliverySettings) (b : Batch) :
    (ofBatch settings b).Lasts settings.policy := by
  unfold ofBatch
  split
  · exact trivial
  · exact .inl (Call.steady_initial _)

theorem Move.lasts (replies : settings.transport.Lasts) (fits : settings.policy.fits = true)
    (m : Move settings now cancelled journal seat parcel old new entries)
    (h : old.Lasts settings.policy) : new.Lasts settings.policy := by
  cases m with
  | become moves => exact Call.Lasts.become h fits moves
  | @begin _ _ _ _ _ _ _ post _ moves made goes seen =>
    obtain ⟨rfl, -⟩ := Call.ready_of_begin moves
    obtain ⟨r, answer⟩ := replies journal.posts post
    rw [goes]
    exact Call.Lasts.begin h answer

theorem Lasts.result_ne_crashed {p : Policy} {r : Result} (h : old.Lasts p)
    (ends : old.result? = some r) : r ≠ .crashed := by
  rintro rfl
  cases old with
  | unpacked f => cases ends
  | sending envelope call post =>
    cases call with
    | crashed n => exact Call.Lasts.ne_crashed h n rfl
    | ended n r =>
      cases r with
      | ok a => cases ends
      | error e => cases ends
    | ready n pause => cases ends
    | attempting n pause due answer => cases ends
    | pausing n pause wake => cases ends

end Sending

/-! ## Workers -/

namespace Pool

/-- A worker that lives, with a delivery in hand that lasts. -/
structure Worker.Lasts (p : Policy) (w : Worker) : Prop where
  alive : w.phase ≠ .crashed
  delivery : ∀ parcel sending, w.phase = .delivering parcel sending → sending.Lasts p

theorem Worker.lasts_fresh (p : Policy) : ({} : Worker).Lasts p :=
  ⟨Phase.noConfusion, fun _ _ => Phase.noConfusion⟩

namespace Scene

variable {settings : DeliverySettings} {seat : Seat} {old next : Scene}

theorem lasts_deliver (s : Scene) (parcel : Parcel) :
    (s.deliver settings parcel).worker.Lasts settings.policy := by
  refine ⟨Phase.noConfusion, ?_⟩
  rintro _ _ phase
  cases phase
  exact Sending.lasts_ofBatch settings parcel.batch

/-- Only a delivery that broke off takes its worker along. -/
theorem lasts_conclude {p : Policy} {r : Sending.Result} (s : Scene) (parcel : Parcel)
    (lives : r ≠ .crashed) : (s.conclude parcel r).worker.Lasts p := by
  have idle : (s.conclude parcel r).worker.phase = .seeking ∨
      (s.conclude parcel r).worker.phase = .ended := by
    cases r with
    | delivered n => exact .inl rfl
    | failed f =>
      simp only [conclude]
      split
      · exact .inr rfl
      · exact .inl rfl
    | crashed => exact absurd rfl lives
  rcases idle with here | here
  · constructor <;> simp [here]
  · constructor <;> simp [here]

theorem Move.lasts (replies : settings.transport.Lasts) (fits : settings.policy.fits = true)
    (m : old.Move settings seat next) (h : old.worker.Lasts settings.policy) :
    next.worker.Lasts settings.policy := by
  cases m with
  | take phase signal taken => exact lasts_deliver _ _
  | collect phase signal given => exact lasts_deliver _ _
  | @conclude parcel sending result phase ends =>
    exact lasts_conclude old parcel ((h.delivery parcel sending phase).result_ne_crashed ends)
  | go phase noResult move =>
    refine ⟨Phase.noConfusion, ?_⟩
    rintro _ _ phase'
    cases phase'
    exact move.lasts replies fits (h.delivery _ _ phase)
  | _ => exact ⟨Phase.noConfusion, fun _ _ => Phase.noConfusion⟩

end Scene

end Pool

/-! ## Agents -/

namespace Agent

/-- No worker has broken off, and no batcher is about to ask for more room than there can be. -/
def Unharmed (s : AgentSettings) (a : Agent) : Prop :=
  ∀ d ∈ a.drains, (∀ w ∈ d.workers, w.phase ≠ .crashed) ∧
    (d.stages.batcher = .starting → Batcher.fits s.batchSize = true)

variable {s : AgentSettings} {allowed : Agent → Event → Bool} {a b : Agent}

theorem crew_lasts_of_change {e : Event} (replies : s.delivery.transport.Lasts)
    (fits : s.delivery.policy.fits = true) (h : Change s a e b)
    (lasts : ∀ x ∈ a.crew, x.2.Lasts s.delivery.policy) :
    ∀ x ∈ b.crew, x.2.Lasts s.delivery.policy := by
  cases crew_of_change h with
  | moved before after here there move =>
    rw [before] at lasts
    rw [after]
    simp only [List.forall_mem_append, List.forall_mem_cons] at lasts ⊢
    obtain ⟨front, old, back⟩ := lasts
    exact ⟨front, move.lasts replies fits old, back⟩
  | joined crew idle permits journal =>
    rw [crew]
    intro x hx
    rcases List.mem_append.1 hx with hx | hx
    · exact lasts x hx
    · rw [idle x hx]
      exact Worker.lasts_fresh _

/-- Nothing breaks off where the posts do not, and where the pauses and the batches are not too large. -/
theorem unharmed_of_reaches (replies : s.delivery.transport.Lasts)
    (pauses : s.delivery.policy.fits = true) (room : Batcher.fits s.batchSize = true)
    (start : a.drains = []) (run : Reaches s allowed a b) : b.Unharmed s := by
  have lasts : ∀ x ∈ b.crew, x.2.Lasts s.delivery.policy := by
    refine run.keeps (fun b => ∀ x ∈ b.crew, x.2.Lasts s.delivery.policy) ?_ ?_
    · intro x hx
      obtain ⟨d, found, -⟩ := mem_crew.1 hx
      rw [start] at found
      cases found
    · intro b e c here _ after
      exact crew_lasts_of_change replies pauses (change_of_after after) here
  intro d hd
  refine ⟨fun w hw => ?_, fun _ => room⟩
  obtain ⟨n, found⟩ := List.mem_iff_getElem?.1 hd
  obtain ⟨i, worker⟩ := List.mem_iff_getElem?.1 hw
  exact (lasts (⟨n, i⟩, w) (mem_crew.2 ⟨d, found, worker⟩)).alive

end Agent

end Telemetry
