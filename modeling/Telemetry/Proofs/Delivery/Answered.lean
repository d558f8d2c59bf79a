/-
The journal tells the answers that were given. A post is answered when it begins, by what answers the
posts, given those before it (`Journal.Replied`); and what is written down when it ends is that answer,
unless nobody waited for it (`Sending.Expects`, `Sending.Move.answered`).
-/
import Telemetry.Proofs.Delivery.Tale

namespace Telemetry

open Retry (Answer Call)

/-- Whether a post of a journal has a certain answer, given the posts before it. -/
inductive Journal.Replied (s : DeliverySettings) (q : Post) (answer : Answer PostFailure Unit) :
    Journal → Prop
  | here {j : Journal} (reply : (s.transport j.posts q).answer = answer) : Replied s q answer (.begun q :: j)
  | later {e : Entry} {j : Journal} (before : Replied s q answer j) : Replied s q answer (e :: j)

namespace Journal

variable {s : DeliverySettings} {q : Post} {answer other : Answer PostFailure Unit} {j entries : Journal}

theorem Replied.append (h : j.Replied s q answer) (entries : Journal) :
    (entries ++ j).Replied s q answer := by
  induction entries with
  | nil => exact h
  | cons e entries ih => exact .later ih

theorem Replied.mem_posts (h : j.Replied s q answer) : q ∈ j.posts := by
  induction h with
  | here reply => simp [posts]
  | @later e j before ih =>
    unfold posts at ih ⊢
    rw [List.filterMap_cons]
    split
    · exact ih
    · exact List.mem_cons_of_mem _ ih

theorem count_posts_cons (e : Entry) (j : Journal) : j.posts.count q ≤ (posts (e :: j)).count q := by
  cases e with
  | begun p => simp [posts, List.count_cons]
  | _ => exact Nat.le_refl _

/-- A post that was begun once has one answer. -/
theorem Replied.unique (h : j.Replied s q answer) (k : j.Replied s q other) (once : j.posts.count q ≤ 1) :
    answer = other := by
  induction h with
  | @here j reply =>
    cases k with
    | here reply' => exact reply.symm.trans reply'
    | later before =>
      have again := List.count_pos_iff.2 before.mem_posts
      simp only [posts, List.filterMap_cons, List.count_cons_self] at once again
      omega
  | @later e j before ih =>
    cases k with
    | here reply' =>
      have again := List.count_pos_iff.2 before.mem_posts
      simp only [posts, List.filterMap_cons, List.count_cons_self] at once again
      omega
    | later before' => exact ih before' (Nat.le_trans (count_posts_cons e j) once)

/-- What the journal tells of the end of a post is the answer to it, or that nobody waited for it. -/
def Tells (s : DeliverySettings) (j : Journal) (q : Post) (finish : Finish) : Prop :=
  finish = .abandoned ∨ ∃ answer, j.Replied s q answer ∧ finish = Finish.ofAnswer answer

/-- A journal that tells of each post that ended how it was answered. -/
def Truthful (s : DeliverySettings) (j : Journal) : Prop :=
  ∀ q time finish, .ended q time finish ∈ j → j.Tells s q finish

theorem Truthful.accepted (h : j.Truthful s) {time : Time} (mem : .ended q time .accepted ∈ j) :
    j.Replied s q (.result (.ok ())) := by
  rcases h q time _ mem with gone | ⟨answer, replied, same⟩
  · cases gone
  · cases answer with
    | crash => cases same
    | result r => cases r <;> cases same; exact replied

theorem Tells.failed {f : PostFailure} (h : j.Tells s q (.failed f)) : j.Replied s q (.result (.error f)) := by
  rcases h with gone | ⟨answer, replied, same⟩
  · cases gone
  · cases answer with
    | crash => cases same
    | result r => cases r <;> cases same; exact replied

theorem Truthful.failed (h : j.Truthful s) {time : Time} {f : PostFailure}
    (mem : .ended q time (.failed f) ∈ j) : j.Replied s q (.result (.error f)) :=
  (h q time _ mem).failed

theorem Tells.append {finish : Finish} (h : j.Tells s q finish) (entries : Journal) :
    (entries ++ j).Tells s q finish := by
  rcases h with gone | ⟨answer, replied, same⟩
  · exact .inl gone
  · exact .inr ⟨answer, replied.append entries, same⟩

/-- What is written down truthfully keeps a journal truthful. -/
theorem Truthful.append (h : j.Truthful s)
    (told : ∀ q time finish, .ended q time finish ∈ entries → (entries ++ j).Tells s q finish) :
    (entries ++ j).Truthful s := by
  intro q time finish mem
  rcases List.mem_append.1 mem with mem | mem
  · exact told q time finish mem
  · exact (h q time finish mem).append entries

end Journal

namespace Sending

/-- A delivery that waits for the answer to its post. -/
def Expects (s : DeliverySettings) (journal : Journal) (d : Sending) : Prop :=
  ∀ envelope call q, d = sending envelope call (some q) →
    ∃ n pause due answer, call = .attempting n pause due answer ∧ journal.Replied s q answer

variable {s : DeliverySettings} {seat : Seat} {parcel : Parcel} {now : Time} {cancelled : Bool}
  {journal entries : Journal} {old new : Sending}

/-- A step of a delivery writes down the answers that it was given. -/
theorem Move.answered (m : Move s now cancelled journal seat parcel old new entries)
    (h : old.Expects s journal) : new.Expects s (entries ++ journal) ∧
      ∀ q time finish, .ended q time finish ∈ entries → (entries ++ journal).Tells s q finish := by
  cases m with
  | @become envelope call next post moves =>
    constructor
    · rintro envelope' call' q same
      cases same
    rintro q time finish mem
    cases post with
    | none => simp [closing] at mem
    | some p =>
      obtain ⟨n, pause, due, answer, rfl, replied⟩ := h _ _ _ rfl
      simp only [closing, List.mem_singleton, Entry.ended.injEq] at mem
      obtain ⟨rfl, -, rfl⟩ := mem
      cases cancelled with
      | true => exact .inl rfl
      | false => exact .inr ⟨answer, replied.append _, rfl⟩
  | @begin envelope call next old new n pause post entries moves made goes seen =>
    rcases seen with ⟨rfl, rfl, m, p, due, answer, waits⟩ | ⟨rfl, notWaiting, rfl⟩
    · refine ⟨?_, fun q time finish mem => by simp at mem⟩
      rintro envelope' call' q same
      cases same
      refine ⟨m, p, due, answer, waits, .here ?_⟩
      rw [goes] at waits
      unfold Call.begin at waits
      split at waits
      · exact absurd waits Call.answered_ne_attempting
      · cases waits
        rfl
    · constructor
      · rintro envelope' call' q same
        cases same
      rintro q time finish mem
      simp only [List.mem_cons, Entry.ended.injEq, reduceCtorEq, List.not_mem_nil, or_false] at mem
      obtain ⟨rfl, -, rfl⟩ := mem
      exact .inr ⟨_, .later (.here rfl), rfl⟩

theorem expects_ofBatch (s : DeliverySettings) (journal : Journal) (b : Batch) :
    (ofBatch s b).Expects s journal := by
  unfold ofBatch
  split <;> rintro envelope call q same <;> cases same

theorem Expects.append (h : old.Expects s journal) (entries : Journal) : old.Expects s (entries ++ journal) := by
  rintro envelope call q same
  obtain ⟨n, pause, due, answer, waits, replied⟩ := h envelope call q same
  exact ⟨n, pause, due, answer, waits, replied.append entries⟩

end Sending

namespace Pool

/-- A worker whose delivery, if it has one, waits for the answer to its post. -/
def Worker.Expects (s : DeliverySettings) (journal : Journal) (w : Worker) : Prop :=
  ∀ parcel d, w.phase = .delivering parcel d → d.Expects s journal

theorem Worker.Expects.append {s : DeliverySettings} {journal : Journal} {w : Worker}
    (h : w.Expects s journal) (entries : Journal) : w.Expects s (entries ++ journal) :=
  fun parcel d phase => (h parcel d phase).append entries

/-- A step of a worker writes down the answers that it was given. -/
theorem Scene.Move.answered {s : DeliverySettings} {seat : Seat} {old next : Scene} (m : old.Move s seat next)
    (h : old.worker.Expects s old.shared.journal) :
    next.worker.Expects s next.shared.journal ∧ ∃ entries,
      next.shared.journal = entries ++ old.shared.journal ∧
        ∀ q time finish, .ended q time finish ∈ entries → next.shared.journal.Tells s q finish := by
  have silent : next.shared.journal = old.shared.journal → ∃ entries,
      next.shared.journal = entries ++ old.shared.journal ∧
        ∀ q time finish, .ended q time finish ∈ entries → next.shared.journal.Tells s q finish :=
    fun same => ⟨[], same, by simp⟩
  have idle : ∀ {w : Worker}, w.isDelivering = false → w.Expects s next.shared.journal := by
    rintro w idle parcel d phase
    simp [Worker.isDelivering, phase] at idle
  have delivers : ∀ {w : Worker} {parcel : Parcel},
      w.phase = .delivering parcel (Sending.ofBatch s parcel.batch) → w.Expects s next.shared.journal := by
    rintro w parcel phase parcel' d phase'
    rw [phase] at phase'
    cases phase'
    exact Sending.expects_ofBatch s _ parcel.batch
  cases m with
  | leave phase signal => exact ⟨idle rfl, silent rfl⟩
  | listen phase off free => exact ⟨idle rfl, silent rfl⟩
  | hangUp phase signal => exact ⟨idle rfl, silent rfl⟩
  | receive phase off got => exact ⟨idle rfl, silent rfl⟩
  | finish phase off got => exact ⟨idle rfl, silent rfl⟩
  | putDown phase signal => exact ⟨idle rfl, silent rfl⟩
  | queue phase off none_free => exact ⟨idle rfl, silent rfl⟩
  | withdraw phase signal => exact ⟨idle rfl, silent rfl⟩
  | take phase off taken => exact ⟨delivers rfl, silent rfl⟩
  | collect phase off given => exact ⟨delivers rfl, silent rfl⟩
  | @conclude parcel sending result phase ends =>
    refine ⟨idle ?_, silent (by rw [shared_conclude])⟩
    unfold Worker.isDelivering
    rcases phase_conclude old parcel result with now | now | now <;> rw [now]
  | @go parcel sending following entries phase noResult move =>
    obtain ⟨expects, told⟩ := move.answered (h parcel sending phase)
    refine ⟨?_, entries, rfl, told⟩
    rintro parcel' d phase'
    cases phase'
    exact expects

end Pool

end Telemetry
