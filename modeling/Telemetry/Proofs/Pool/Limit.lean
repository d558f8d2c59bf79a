/-
The limit on deliveries. At every moment of every history the permits that are free, the deliveries in
progress and the permits given to workers that wait add up to the number of workers of the pool,
whoever shares it (`permits_add_up`). A post is under way only inside a delivery, so the posts under
way keep to the same limit, and when all drains have returned all permits are free.

The invariant is `Lawful`: besides the sum it says that the seats in the row, or with a permit not yet
taken up, are exactly those of the workers that wait, and that the posts which the journal shows as
begun and not ended are exactly those in the hands of the workers.
-/
import Telemetry.Proofs.Agent.Crew
import Telemetry.Proofs.Pool.Permits
import Telemetry.Proofs.Retry.Move

namespace Telemetry

open Pool (Drain Permits Scene Worker)
open Retry (Call)

/-! ## Posts under way -/

/-- The posts that were begun and have not ended, the latest first. -/
def Journal.underway : Journal → List Post
  | [] => []
  | .begun p :: j => p :: underway j
  | .ended p _ _ :: j => (underway j).erase p
  | _ :: j => underway j

namespace Sending

/-- The post that a delivery waits for. -/
def post? : Sending → Option Post
  | unpacked _ => none
  | sending _ _ post => post

/-- A post is waited for only while an attempt is under way. -/
def IsSound (d : Sending) : Prop :=
  ∀ envelope call post, d = sending envelope call (some post) →
    ∃ n pause due answer, call = .attempting n pause due answer

theorem isSound_ofBatch (settings : DeliverySettings) (b : Batch) : (ofBatch settings b).IsSound := by
  unfold ofBatch
  split <;> intro envelope call post h <;> cases h

theorem post?_ofBatch (settings : DeliverySettings) (b : Batch) : (ofBatch settings b).post? = none := by
  unfold ofBatch
  split <;> rfl

/-- A delivery that is over waits for no post. -/
theorem post?_of_result? {d : Sending} {r : Result} (sound : d.IsSound) (h : d.result? = some r) :
    d.post? = none := by
  cases d with
  | unpacked f => rfl
  | sending envelope call post =>
    cases post with
    | none => rfl
    | some post =>
      obtain ⟨n, pause, due, answer, rfl⟩ := sound _ _ _ rfl
      cases h

variable {settings : DeliverySettings} {now : Time} {cancelled : Bool} {journal entries : Journal}
  {seat : Seat} {parcel : Parcel} {old new : Sending}

theorem Move.isSound (h : Move settings now cancelled journal seat parcel old new entries) : new.IsSound := by
  cases h with
  | become moves => intro _ _ _ h; cases h
  | begin moves made goes seen =>
    rcases seen with ⟨rfl, -, n, pause, due, answer, hn⟩ | ⟨rfl, -, -⟩
    · intro _ _ _ h
      cases h
      exact ⟨n, pause, due, answer, hn⟩
    · intro _ _ _ h; cases h

/-- A delivery that begins a post waits for none. -/
theorem post?_of_begin {policy : Retry.Policy} {envelope : Envelope} {call : Call PostFailure Unit}
    {post : Option Post} {n : Nat} {pause : Span} (sound : (sending envelope call post).IsSound)
    (h : call.move policy PostFailure.classify now cancelled = .begin n pause) : post = none := by
  cases post with
  | none => rfl
  | some post =>
    obtain ⟨m, p, due, answer, rfl⟩ := sound _ _ _ rfl
    cases (Call.ready_of_begin h).1

/-- What a step of a delivery writes down keeps the posts under way in step with the one in hand. -/
theorem Move.underway (sound : old.IsSound)
    (h : Move settings now cancelled journal seat parcel old new entries) {others : List Post}
    (posts : journal.underway.Perm (old.post?.toList ++ others)) :
    (entries ++ journal).underway.Perm (new.post?.toList ++ others) := by
  cases h with
  | @become envelope call next post moves =>
    cases post with
    | none => simpa [closing, post?] using posts
    | some post =>
      obtain ⟨n, pause, due, answer, rfl⟩ := sound _ _ _ rfl
      simp only [post?, Option.toList, List.singleton_append] at posts ⊢
      have := posts.erase post
      rwa [List.erase_cons_head] at this
  | begin moves made goes seen =>
    obtain rfl := post?_of_begin sound moves
    simp only [post?, Option.toList, List.nil_append] at posts
    rcases seen with ⟨rfl, rfl, -⟩ | ⟨rfl, -, rfl⟩
    · exact posts.cons _
    · simpa [Journal.underway, post?] using posts

end Sending

namespace Pool.Worker

/-- Whether a worker waits for a permit. -/
def isQueueing (w : Worker) : Bool := match w.phase with
  | .queueing _ => true
  | _ => false

/-- The post that a worker waits for. -/
def post? (w : Worker) : Option Post := match w.phase with
  | .delivering _ d => d.post?
  | _ => none

/-- A post is waited for only while an attempt is under way. -/
def IsSound (w : Worker) : Prop := ∀ parcel d, w.phase = .delivering parcel d → d.IsSound

end Pool.Worker

/-- Only a worker that delivers waits for a post. -/
theorem Pool.Worker.post?_of_idle {w : Worker} (h : w.isDelivering = false) : w.post? = none := by
  unfold post?
  split
  · rename_i parcel d phase
    rw [isDelivering, phase] at h
    cases h
  · rfl

/-- Posts that are waited for are waited for by workers that deliver. -/
theorem Pool.length_filterMap_post? (crew : List (Seat × Worker)) :
    (crew.filterMap (·.2.post?)).length ≤ crew.countP (·.2.isDelivering) := by
  induction crew with
  | nil => exact Nat.le_refl 0
  | cons x crew ih =>
    rw [List.filterMap_cons, List.countP_cons]
    cases delivers : x.2.isDelivering with
    | false =>
      rw [Worker.post?_of_idle delivers]
      exact ih
    | true =>
      cases x.2.post? with
      | none => exact Nat.le_succ_of_le ih
      | some p => exact Nat.succ_le_succ ih

/-! ## The invariant -/

/-- What permits, journal and workers have to do with one another in a pool with `total` permits. -/
structure Pool.Lawful (total : Nat) (permits : Permits) (journal : Journal)
    (crew : List (Seat × Worker)) : Prop where
  adds_up : permits.unused + crew.countP (·.2.isDelivering) = total
  waiters : permits.waiters.Perm ((crew.filter (·.2.isQueueing)).map (·.1))
  sound : ∀ x ∈ crew, x.2.IsSound
  posts : journal.underway.Perm (crew.filterMap (·.2.post?))

namespace Pool.Lawful

variable {total : Nat} {permits : Permits} {journal : Journal} {crew crew' : List (Seat × Worker)}

theorem of_perm (h : Lawful total permits journal crew) (same : crew.Perm crew') :
    Lawful total permits journal crew' where
  adds_up := by rw [← same.countP_eq]; exact h.adds_up
  waiters := h.waiters.trans ((same.filter _).map _)
  sound x hx := h.sound x (same.mem_iff.2 hx)
  posts := h.posts.trans (same.filterMap _)

/-- Workers that have done nothing yet hold nothing. -/
theorem append_idle (h : Lawful total permits journal crew) {fresh : List (Seat × Worker)}
    (idle : ∀ x ∈ fresh, x.2 = {}) : Lawful total permits journal (crew ++ fresh) := by
  have none_delivers : fresh.countP (·.2.isDelivering) = 0 :=
    List.countP_eq_zero.2 fun x hx => by rw [idle x hx]; decide
  have none_queues : fresh.filter (·.2.isQueueing) = [] :=
    List.filter_eq_nil_iff.2 fun x hx => by rw [idle x hx]; decide
  have none_posts : fresh.filterMap (·.2.post?) = [] :=
    List.filterMap_eq_nil_iff.2 fun x hx => by rw [idle x hx]; rfl
  refine ⟨?_, ?_, fun x hx => ?_, ?_⟩
  · rw [List.countP_append, none_delivers]
    exact h.adds_up
  · rw [List.filter_append, none_queues, List.append_nil]
    exact h.waiters
  · rcases List.mem_append.1 hx with hx | hx
    · exact h.sound x hx
    · intro parcel d hd
      rw [idle x hx] at hd
      cases hd
  · rw [List.filterMap_append, none_posts, List.append_nil]
    exact h.posts

end Pool.Lawful

/-! ## One worker moves -/

namespace Pool.Lawful

variable {total : Nat} {permits permits' : Permits} {journal journal' : Journal} {seat : Seat}
  {w w' : Worker} {others : List (Seat × Worker)}

/-- The seat of a worker that waits for a permit. -/
def seatOf (seat : Seat) (w : Worker) : List Seat := if w.isQueueing then [seat] else []

/-- One worker is exchanged for another: what it holds of permits, of the row and of the posts has to
change as permits and journal do. -/
theorem exchange (h : Lawful total permits journal ((seat, w) :: others))
    (sum : permits'.unused + w'.isDelivering.toNat = permits.unused + w.isDelivering.toNat)
    (waits : ∀ l, permits.waiters.Perm (seatOf seat w ++ l) → permits'.waiters.Perm (seatOf seat w' ++ l))
    (sound : w'.IsSound)
    (posts : ∀ l, journal.underway.Perm (w.post?.toList ++ l) → journal'.underway.Perm (w'.post?.toList ++ l)) :
    Lawful total permits' journal' ((seat, w') :: others) where
  adds_up := by
    have := h.adds_up
    simp only [List.countP_cons] at this ⊢
    cases hw : w.isDelivering <;> cases hw' : w'.isDelivering <;>
      simp only [hw, hw', Bool.toNat_true, Bool.toNat_false, if_true, Bool.false_eq_true, if_false] at sum this ⊢ <;>
      omega
  waiters := by
    have hold := h.waiters
    have split : ∀ v : Worker, ((((seat, v) :: others).filter (·.2.isQueueing)).map (·.1)) =
        seatOf seat v ++ (others.filter (·.2.isQueueing)).map (·.1) := by
      intro v
      unfold seatOf
      cases hv : v.isQueueing <;> simp [hv]
    rw [split] at hold ⊢
    exact waits _ hold
  sound := by
    intro x hx
    rcases List.mem_cons.1 hx with rfl | hx
    · exact sound
    · exact h.sound x (List.mem_cons_of_mem _ hx)
  posts := by
    have hold := h.posts
    have split : ∀ v : Worker, ((seat, v) :: others).filterMap (·.2.post?) =
        v.post?.toList ++ others.filterMap (·.2.post?) := by
      intro v
      cases hv : v.post? <;> simp [hv]
    rw [split] at hold ⊢
    exact posts _ hold

/-- Whether a worker holds neither a permit nor a place in the row. -/
def IsFree (w : Worker) : Prop := w.isDelivering = false ∧ w.isQueueing = false

theorem isFree_of_phase {phase : Phase} (inPhase : w.phase = phase) (free : IsFree ⟨phase, []⟩) : IsFree w := by
  subst inPhase
  exact free

theorem isSound_of_idle (h : w.isDelivering = false) : w.IsSound := by
  intro parcel d hd
  simp [Worker.isDelivering, hd] at h

/-- A step from one place to another where nothing is held. -/
theorem exchange_free (h : Lawful total permits journal ((seat, w) :: others)) (before : IsFree w)
    (after : IsFree w') : Lawful total permits journal ((seat, w') :: others) := by
  apply h.exchange
  · rw [before.1, after.1]
  · intro l hl
    simpa [seatOf, before.2, after.2] using hl
  · exact isSound_of_idle after.1
  · intro l hl
    rw [Worker.post?_of_idle before.1] at hl
    rw [Worker.post?_of_idle after.1]
    exact hl

/-- A worker stands at the end of the row. -/
theorem enqueue (h : Lawful total permits journal ((seat, w) :: others)) (before : IsFree w)
    (waits : w'.isQueueing = true) (idle : w'.isDelivering = false) :
    Lawful total (permits.enqueue seat) journal ((seat, w') :: others) := by
  apply h.exchange
  · rw [Permits.unused_enqueue, before.1, idle]
  · intro l hl
    simp only [seatOf, before.2, Bool.false_eq_true, if_false, List.nil_append] at hl
    simp only [seatOf, waits, if_true, List.singleton_append]
    exact (Permits.waiters_enqueue _ seat).trans (hl.cons seat)
  · exact isSound_of_idle idle
  · intro l hl
    rw [Worker.post?_of_idle before.1] at hl
    rw [Worker.post?_of_idle idle]
    exact hl

/-- A worker leaves the row; the permit that it may have been given goes to the next one. -/
theorem withdraw (h : Lawful total permits journal ((seat, w) :: others)) (waits : w.isQueueing = true)
    (idle : w.isDelivering = false) (after : IsFree w') :
    Lawful total (permits.withdraw seat) journal ((seat, w') :: others) := by
  apply h.exchange
  · rw [idle, after.1]
    exact congrArg (· + 0) (Permits.unused_withdraw _ seat)
  · intro l hl
    simp only [seatOf, waits, if_true, List.singleton_append] at hl
    have here : seat ∈ permits.waiters := hl.mem_iff.2 List.mem_cons_self
    simp only [seatOf, after.2, Bool.false_eq_true, if_false, List.nil_append]
    exact ((Permits.waiters_withdraw here).symm.trans hl).cons_inv
  · exact isSound_of_idle after.1
  · intro l hl
    rw [Worker.post?_of_idle idle] at hl
    rw [Worker.post?_of_idle after.1]
    exact hl

/-- A worker gives its permit back when no post of its is under way. -/
theorem release (h : Lawful total permits journal ((seat, w) :: others)) (holds : w.isDelivering = true)
    (waits : w.isQueueing = false) (none_posts : w.post? = none) (after : IsFree w') :
    Lawful total permits.release journal ((seat, w') :: others) := by
  apply h.exchange
  · rw [holds, after.1]
    exact Permits.unused_release _
  · intro l hl
    simp only [seatOf, waits, Bool.false_eq_true, if_false] at hl
    simp only [seatOf, after.2, Bool.false_eq_true, if_false]
    exact (Permits.waiters_release _).trans hl
  · exact isSound_of_idle after.1
  · intro l hl
    rw [none_posts] at hl
    rw [Worker.post?_of_idle after.1]
    exact hl

/-- A worker that takes a permit up starts a delivery, in which no post is under way yet. -/
theorem deliver (h : Lawful total permits journal ((seat, w) :: others)) {settings : DeliverySettings}
    {s : Scene} {parcel : Parcel} (idle : w.isDelivering = false) (taken : permits'.unused + 1 = permits.unused)
    (waits : ∀ l, permits.waiters.Perm (seatOf seat w ++ l) → permits'.waiters.Perm l) :
    Lawful total permits' journal ((seat, (s.deliver settings parcel).worker) :: others) := by
  have none_before : w.post? = none := Worker.post?_of_idle idle
  apply h.exchange
  · rw [idle]
    exact taken
  · exact waits
  · intro parcel d hd
    cases hd
    exact Sending.isSound_ofBatch settings _
  · intro l hl
    rw [none_before] at hl
    have none_after : (s.deliver settings parcel).worker.post? = none :=
      Sending.post?_ofBatch settings parcel.batch
    rw [none_after]
    exact hl

/-- A step of a worker keeps the permits adding up, the row complete and the posts in hand. -/
theorem move {settings : DeliverySettings} {old next : Scene}
    (h : Lawful total old.shared.permits old.shared.journal ((seat, old.worker) :: others))
    (m : old.Move settings seat next) :
    Lawful total next.shared.permits next.shared.journal ((seat, next.worker) :: others) := by
  cases m with
  | leave phase signal => exact h.exchange_free (isFree_of_phase phase ⟨rfl, rfl⟩) ⟨rfl, rfl⟩
  | listen phase signal idle => exact h.exchange_free (isFree_of_phase phase ⟨rfl, rfl⟩) ⟨rfl, rfl⟩
  | hangUp phase signal => exact h.exchange_free (isFree_of_phase phase ⟨rfl, rfl⟩) ⟨rfl, rfl⟩
  | receive phase signal got => exact h.exchange_free (isFree_of_phase phase ⟨rfl, rfl⟩) ⟨rfl, rfl⟩
  | finish phase signal got => exact h.exchange_free (isFree_of_phase phase ⟨rfl, rfl⟩) ⟨rfl, rfl⟩
  | putDown phase signal => exact h.exchange_free (isFree_of_phase phase ⟨rfl, rfl⟩) ⟨rfl, rfl⟩
  | take phase signal taken =>
    apply h.deliver (by simp [Worker.isDelivering, phase]) (Permits.unused_of_take? taken)
    intro l hl
    rw [Permits.waiters_of_take? taken]
    simpa [seatOf, Worker.isQueueing, phase] using hl
  | queue phase signal none_free => exact h.enqueue (isFree_of_phase phase ⟨rfl, rfl⟩) rfl rfl
  | withdraw phase signal =>
    have waits : old.worker.isQueueing = true := by simp [Worker.isQueueing, phase]
    have idle : old.worker.isDelivering = false := by simp [Worker.isDelivering, phase]
    exact h.withdraw waits idle ⟨rfl, rfl⟩
  | collect phase signal given =>
    apply h.deliver (by simp [Worker.isDelivering, phase]) (Permits.unused_of_collect? given)
    intro l hl
    simp only [seatOf, Worker.isQueueing, phase, if_true, List.singleton_append] at hl
    exact ((Permits.waiters_of_collect? given).symm.trans hl).cons_inv
  | @conclude parcel sending result phase ends =>
    have sound : sending.IsSound := h.sound _ List.mem_cons_self _ _ phase
    -- a delivery that has come to its result waits for no answer
    have none_posts : old.worker.post? = none := by
      simp only [Worker.post?, phase]
      exact Sending.post?_of_result? sound ends
    have holds : old.worker.isDelivering = true := by simp [Worker.isDelivering, phase]
    have waits : old.worker.isQueueing = false := by simp [Worker.isQueueing, phase]
    have after : IsFree (old.conclude parcel result).worker := by
      rcases Scene.phase_conclude old parcel result with here | here | here <;>
        exact isFree_of_phase here ⟨rfl, rfl⟩
    rw [Scene.shared_conclude]
    exact h.release holds waits none_posts after
  | @go parcel sending _ _ phase noResult move =>
    have sound : sending.IsSound := h.sound _ List.mem_cons_self _ _ phase
    apply h.exchange
    · simp [Scene.withPhase, Worker.isDelivering, phase]
    · intro l hl
      simpa [seatOf, Scene.withPhase, Worker.isQueueing, phase] using hl
    · intro parcel d hd
      cases hd
      exact move.isSound
    · intro l hl
      simp only [Worker.post?, phase] at hl
      exact move.underway sound hl

/-- When every worker has come to its end, all permits are free and no post is under way. -/
theorem all_free {crew : List (Seat × Worker)} (h : Lawful total permits journal crew)
    (allOver : ∀ x ∈ crew, x.2.isOver = true) :
    permits = { free := total } ∧ crew.countP (·.2.isDelivering) = 0 ∧ journal.underway = [] := by
  have idle : ∀ x ∈ crew, x.2.isDelivering = false ∧ x.2.isQueueing = false := by
    intro x hx
    have ends := allOver x hx
    unfold Worker.isOver at ends
    unfold Worker.isDelivering Worker.isQueueing
    split at ends <;> simp_all
  have none_delivers : crew.countP (·.2.isDelivering) = 0 :=
    List.countP_eq_zero.2 fun x hx => by simp [(idle x hx).1]
  have none_queues : crew.filter (·.2.isQueueing) = [] :=
    List.filter_eq_nil_iff.2 fun x hx => by simp [(idle x hx).2]
  have none_posts : crew.filterMap (·.2.post?) = [] :=
    List.filterMap_eq_nil_iff.2 fun x hx => Worker.post?_of_idle (idle x hx).1
  have nobody := h.waiters
  rw [none_queues] at nobody
  obtain ⟨row, granted⟩ := List.append_eq_nil_iff.1 nobody.eq_nil
  have sum := h.adds_up
  rw [none_delivers, Permits.unused, granted] at sum
  have posts := h.posts
  rw [none_posts] at posts
  refine ⟨?_, none_delivers, posts.eq_nil⟩
  cases permits
  simp_all

end Pool.Lawful

/-! ## The limit in every history -/

namespace Agent

open Pool (Lawful)

variable {s : AgentSettings} {a b : Agent}

/-- The number of batches that are being delivered, from the permit taken up to the end of the
delivery. -/
def deliveries (a : Agent) : Nat := a.crew.countP (·.2.isDelivering)

/-- A pool keeps its laws in every change of the agent. -/
theorem lawful_of_change {total : Nat} {e : Event}
    (h : Lawful total a.shared.permits a.shared.journal a.crew) (change : Change s a e b) :
    Lawful total b.shared.permits b.shared.journal b.crew := by
  cases crew_of_change change with
  | moved before after here there move =>
    rw [before, ← here] at h
    rw [after, there]
    exact ((h.of_perm List.perm_middle).move move).of_perm List.perm_middle.symm
  | joined crew idle permits journal =>
    have same : b.shared.journal.underway = a.shared.journal.underway := by
      rcases journal with hj | ⟨time, snapshot, hj⟩ | ⟨time, snapshots, hj⟩ <;> rw [hj] <;> rfl
    rw [crew, permits]
    have joined := h.append_idle idle
    exact ⟨joined.adds_up, joined.waiters, joined.sound, by rw [same]; exact joined.posts⟩

/-- A pool that keeps its laws at first keeps them ever after, whatever is allowed to happen. -/
theorem Reaches.lawful {total : Nat} {allowed : Agent → Event → Bool} (h : Reaches s allowed a b)
    (first : Lawful total a.shared.permits a.shared.journal a.crew) :
    Lawful total b.shared.permits b.shared.journal b.crew :=
  h.keeps (fun a => Lawful total a.shared.permits a.shared.journal a.crew) first
    fun _ _ _ law _ step => lawful_of_change law (change_of_after step)

theorem lawful_initial (workers : Nat) (sampler : Sampling.Sampler) :
    Lawful (Pool.effectiveWorkers workers) (initial workers sampler).shared.permits
      (initial workers sampler).shared.journal (initial workers sampler).crew where
  adds_up := rfl
  waiters := .refl _
  sound x hx := by cases hx
  posts := .refl _

/-- The workers of a drain that has returned have come to their end. -/
def ReturnedAreOver (a : Agent) : Prop :=
  ∀ d ∈ a.drains, d.hasReturned = true → ∀ w ∈ d.workers, w.isOver = true

theorem returnedAreOver_of_change {e : Event} (h : a.ReturnedAreOver) (change : Change s a e b) :
    b.ReturnedAreOver := by
  have set : ∀ {n : Nat} {d d' : Drain}, a.drains[n]? = some d →
      (d'.hasReturned = true → ∀ w ∈ d'.workers, w.isOver = true) →
      ∀ x ∈ a.drains.set n d', x.hasReturned = true → ∀ w ∈ x.workers, w.isOver = true := by
    intro n d d' found hd' x hx
    rcases List.mem_or_eq_of_mem_set hx with hx | rfl
    · exact h x hx
    · exact hd'
  have opened : ∀ stages, ∀ x ∈ a.drains ++ [Drain.ofStages s.workers stages],
      x.hasReturned = true → ∀ w ∈ x.workers, w.isOver = true := by
    intro stages x hx
    rcases List.mem_append.1 hx with hx | hx
    · exact h x hx
    · rw [List.mem_singleton.1 hx]
      intro hr; cases hr
  cases change with
  | polled collects course => exact h
  | reported collects course => exact opened _
  | turned collects course => exact h
  | waited time => exact h
  | cancelled => exact h
  | discarded => exact h
  | opened stages => exact opened stages
  | fed found step => exact h
  | @staged n d t stages found step => exact set found (h d (List.mem_of_getElem? found))
  | @worked n i d w next found worker step =>
    refine set found fun hr => ?_
    -- a worker that moves has not come to its end, so its drain has not returned
    have ends := h d (List.mem_of_getElem? found) hr w (List.mem_of_getElem? worker)
    rw [show w.isOver = false from Scene.live_of_step step] at ends
    cases ends
  | returned found first ends =>
    exact set found fun _ => by simpa using ends

theorem lawful_of_reaches {course : Course} {sampler : Sampling.Sampler}
    (h : Reaches s anything { Agent.initial s.workers sampler with course } a) :
    Lawful (Pool.effectiveWorkers s.workers) a.shared.permits a.shared.journal a.crew ∧
      a.ReturnedAreOver := by
  refine h.keeps (fun a => Lawful _ a.shared.permits a.shared.journal a.crew ∧ a.ReturnedAreOver)
    ⟨?_, ?_⟩ ?_
  · exact ⟨rfl, .refl _, (by intro x hx; cases hx), .refl _⟩
  · intro d hd; cases hd
  · intro b e c ⟨hl, hr⟩ _ he
    exact ⟨lawful_of_change hl (change_of_after he), returnedAreOver_of_change hr (change_of_after he)⟩

/-- In every history of a pool the free permits, the deliveries in progress and the permits given to
workers that wait add up to the number of workers; the posts under way are at most as many as the
deliveries, and these at most as many as the workers; and when every drain has returned, all permits
are free and nobody waits for one. -/
theorem permits_add_up {course : Course} {sampler : Sampling.Sampler}
    (h : Reaches s anything { Agent.initial s.workers sampler with course } a) :
    a.shared.permits.free + a.deliveries + a.shared.permits.granted.length =
        Pool.effectiveWorkers s.workers ∧
      a.shared.journal.underway.length ≤ a.deliveries ∧
      a.deliveries ≤ Pool.effectiveWorkers s.workers ∧
      (a.isQuiet = true → a.shared.permits = { free := Pool.effectiveWorkers s.workers }) := by
  obtain ⟨law, returned⟩ := lawful_of_reaches h
  have sum := law.adds_up
  unfold Permits.unused at sum
  refine ⟨by unfold deliveries; omega, ?_, by unfold deliveries; omega, fun quiet => ?_⟩
  · rw [law.posts.length_eq]
    exact Pool.length_filterMap_post? a.crew
  · have ends : ∀ x ∈ a.crew, x.2.isOver = true := by
      intro x hx
      obtain ⟨d, hd, hw⟩ := mem_crew.1 hx
      have hmem := List.mem_of_getElem? hd
      exact returned d hmem (List.all_eq_true.1 quiet d hmem) _ (List.mem_of_getElem? hw)
    have none_delivers : a.crew.countP (·.2.isDelivering) = 0 := by
      refine List.countP_eq_zero.2 fun x hx => ?_
      have := ends x hx
      unfold Worker.isOver at this
      unfold Worker.isDelivering
      split at this <;> simp_all
    have none_queues : a.crew.filter (·.2.isQueueing) = [] := by
      refine List.filter_eq_nil_iff.2 fun x hx => ?_
      have := ends x hx
      unfold Worker.isOver at this
      unfold Worker.isQueueing
      split at this <;> simp_all
    have nobody := law.waiters
    rw [none_queues] at nobody
    obtain ⟨row, granted⟩ := List.append_eq_nil_iff.1 nobody.eq_nil
    rw [none_delivers, granted] at sum
    cases hp : a.shared.permits
    simp_all

/-- Two drains of one batch each share the permit of one worker: while the first one delivers, the other
one stands in the row. -/
theorem permits_add_up_two_drains :
    ∃ a : Agent, Reaches unanswered anything { Agent.initial 1 ⟨[], []⟩ with course := .idle } a ∧
      (a.deliveries = 1 ∧ a.shared.permits.row = [⟨1, 0⟩] ∧ a.shared.journal.underway.length = 1) ∧
      a.shared.permits.free + a.deliveries + a.shared.permits.granted.length = 1 ∧
      a.shared.journal.underway.length ≤ a.deliveries ∧ a.deliveries ≤ 1 ∧
      (a.isQuiet = true → a.shared.permits = { free := 1 }) := by
  let report := Event.ask (.drain (Stage.Pipeline.ofBatches [[Record.counter "PollCount" 1]] true))
  let works (n k : Nat) : List Event := List.replicate k (.work (.drain n (.work 0)))
  obtain ⟨a, run, facts⟩ := exists_reaches unanswered anything
    { Agent.initial 1 ⟨[], []⟩ with course := .idle } (report :: report :: (works 0 4 ++ works 1 3))
    (fun a => a.deliveries = 1 ∧ a.shared.permits.row = [⟨1, 0⟩] ∧ a.shared.journal.underway.length = 1)
    (by decide)
  exact ⟨a, run, of_decide_eq_true facts, permits_add_up run⟩

end Agent

end Telemetry
