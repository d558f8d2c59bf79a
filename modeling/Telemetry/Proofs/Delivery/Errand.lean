/-
The delivery of one batch from its beginning to its end, with everything that goes on around it: time passes,
other deliveries write into the journal, the signal comes, and the delivery is looked after from time to time
(`Errand`). Its posts carry one envelope, each of them but the first follows on one that was not answered,
and what the delivery gives back counts them (`posts_one_envelope`).
-/
import Telemetry.Proofs.Delivery.Answered
import Telemetry.Proofs.Delivery.Packing
import Telemetry.Proofs.Run

namespace Telemetry

open Text.Utf8 (Octets)

/-! ## What the tale of a delivery says of its posts -/

namespace Journal

/-- A journal of a delivery behind which another post may stand: none was begun, or the last one got no
answer and there are not too many. -/
def AllowsAnother (most : Nat) (j : Journal) : Prop :=
  j = [] ∨ ∃ p time reason rest, j = .ended p time (.failed (.unreachable reason)) :: .begun p :: rest ∧
    j.posts.length < most

/-- A journal in which each post carries what was packed for a batch, and is allowed by those before it. -/
def Orderly (s : DeliverySettings) (b : Batch) (j : Journal) : Prop :=
  ∀ (newer : Journal) (q : Post) (older : Journal), j = newer ++ .begun q :: older →
    s.pack b = .ok q.envelope ∧ older.AllowsAnother s.policy.maxAttempts

variable {s : DeliverySettings} {b : Batch} {j : Journal} {q : Post}

theorem orderly_nil (s : DeliverySettings) (b : Batch) : Orderly s b [] := by
  intro newer q older same
  cases newer <;> cases same

theorem Orderly.begun (h : j.Orderly s b) (packed : s.pack b = .ok q.envelope)
    (allowed : j.AllowsAnother s.policy.maxAttempts) : Orderly s b (.begun q :: j) := by
  intro newer p older same
  cases newer with
  | nil =>
    cases same
    exact ⟨packed, allowed⟩
  | cons e newer =>
    cases same
    exact h newer p older rfl

theorem Orderly.ended (h : j.Orderly s b) (time : Time) (finish : Finish) :
    Orderly s b (.ended q time finish :: j) := by
  intro newer p older same
  cases newer with
  | nil => cases same
  | cons e newer =>
    cases same
    exact h newer p older rfl

end Journal

namespace Sending

variable {s : DeliverySettings} {seat : Seat} {parcel : Parcel} {envelope : Envelope} {n : Nat} {post q : Post}
  {d : Sending} {time ending : Time} {finish : Finish} {status : Nat} {body : String} {j own newer older : Journal}

/-- Only a post that got no answer is worth another one. -/
theorem unreachable_of_retriable {f : PostFailure} (again : PostFailure.classify f = .retriable) :
    ∃ reason, f = .unreachable reason := by
  cases f with
  | unreachable reason => exact ⟨reason, rfl⟩
  | refused status body => cases again

namespace Failed

theorem length_posts (h : Failed s seat parcel envelope n j) : j.posts.length = n := by
  rw [← List.length_map (f := Post.attempt), h.posts.1, List.length_reverse, List.length_range']

theorem allowsAnother (h : Failed s seat parcel envelope n j) : j.AllowsAnother s.policy.maxAttempts := by
  have posts := h.length_posts
  cases h with
  | start packed => exact .inl rfl
  | @next n j post time f before attempt answers again more =>
    -- there is a next post only if the one before it was worth it
    obtain ⟨reason, rfl⟩ := unreachable_of_retriable again
    exact .inr ⟨post, time, reason, j, rfl, posts ▸ more⟩

theorem packed (h : Failed s seat parcel envelope n j) : s.pack parcel.batch = .ok envelope := by
  induction h with
  | start packed => exact packed
  | next before attempt answers again more ih => exact ih

theorem orderly (h : Failed s seat parcel envelope n j) : j.Orderly s parcel.batch := by
  induction h with
  | start packed => exact Journal.orderly_nil s parcel.batch
  | next before attempt answers again more ih =>
    exact (ih.begun (attempt.envelope ▸ before.packed) before.allowsAnother).ended _ _

theorem orderly_begun (h : Failed s seat parcel envelope n j) (attempt : post.IsAttempt seat parcel envelope (n + 1)) :
    Journal.Orderly s parcel.batch (.begun post :: j) :=
  h.orderly.begun (attempt.envelope ▸ h.packed) h.allowsAnother

theorem not_refused (h : Failed s seat parcel envelope n j) : .ended q ending (.failed (.refused status body)) ∉ j := by
  intro mem
  obtain ⟨f, same, again⟩ := h.repeated mem
  cases same
  cases again

/-- The last post of a delivery, if any, was refused. -/
theorem head_of_refused (h : Failed s seat parcel envelope n j)
    (same : .ended post time finish :: .begun post :: j =
      newer ++ .ended q ending (.failed (.refused status body)) :: older) :
    newer = [] ∧ finish = .failed (.refused status body) := by
  cases newer with
  | nil =>
    cases same
    exact ⟨rfl, rfl⟩
  | cons e newer =>
    cases newer with
    | nil => cases same
    | cons e' newer =>
      cases same
      exact absurd (List.mem_append_right newer List.mem_cons_self) h.not_refused

end Failed

namespace Tale

/-- The posts of a delivery carry one envelope, and each of them is allowed by those before it. -/
theorem orderly (h : d.Tale s seat parcel own) : own.Orderly s parcel.batch := by
  cases h with
  | unpacked why => exact Journal.orderly_nil s parcel.batch
  | ready failed | pausing failed | overflown failed | cancelled failed => exact failed.orderly
  | attempting failed attempt answers => exact failed.orderly_begun attempt
  | accepted failed attempt answers | refused failed attempt answers final
  | exhausted failed attempt answers again last | crashed failed attempt answers | abandoned failed attempt =>
    exact (failed.orderly_begun attempt).ended _ _

/-- A delivery counts its posts. -/
theorem attempts_eq (h : d.Tale s seat parcel own) :
    (∀ m, d.result? = some (.delivered m) → m = own.posts.length) ∧
      ∀ f, d.result? = some (.failed f) → f.attempts = own.posts.length := by
  have behind : ∀ {n : Nat} {envelope : Envelope} {post : Post} {time : Time} {finish : Finish} {j : Journal},
      Failed s seat parcel envelope n j →
        n + 1 = (Journal.posts (.ended post time finish :: .begun post :: j)).length := by
    intro n envelope post time finish j failed
    exact congrArg (· + 1) failed.length_posts.symm
  cases h with
  | unpacked why =>
    refine ⟨nofun, ?_⟩
    rintro f ends
    cases ends
    rfl
  | ready failed | attempting failed attempt answers | pausing failed | crashed failed attempt answers
  | overflown failed => exact ⟨nofun, nofun⟩
  | accepted failed attempt answers =>
    refine ⟨?_, nofun⟩
    rintro m ends
    cases ends
    exact behind failed
  | cancelled failed =>
    refine ⟨nofun, ?_⟩
    rintro f ends
    cases ends
    exact failed.length_posts.symm
  | refused failed attempt answers final | exhausted failed attempt answers again last | abandoned failed attempt =>
    refine ⟨nofun, ?_⟩
    rintro f ends
    cases ends
    exact behind failed

/-- A batch that cannot be packed is not posted. -/
theorem unpacked_of_pack (h : d.Tale s seat parcel own) {f : PackFailure} (fails : s.pack parcel.batch = .error f) :
    d.result? = some (.failed (.unpacked f)) ∧ own = [] := by
  have packs : ∀ {envelope : Envelope} {n : Nat} {j : Journal}, ¬ Failed s seat parcel envelope n j := by
    intro envelope n j failed
    cases failed.packed.symm.trans fails
  cases h with
  | unpacked why =>
    cases why.symm.trans fails
    exact ⟨rfl, rfl⟩
  | ready failed | pausing failed | overflown failed | cancelled failed | attempting failed attempt answers
  | accepted failed attempt answers | refused failed attempt answers final
  | exhausted failed attempt answers again last | crashed failed attempt answers | abandoned failed attempt =>
    exact absurd failed packs

/-- A post that was refused was the last one. -/
theorem refused_last (h : d.Tale s seat parcel own)
    (same : own = newer ++ .ended q ending (.failed (.refused status body)) :: older) :
    newer = [] ∧ ∃ m, d.result? = some (.failed (.unsent (.nonRetriable m (.refused status body)))) := by
  have mem : .ended q ending (.failed (.refused status body)) ∈ own := by
    rw [same]
    exact List.mem_append_right newer List.mem_cons_self
  cases h with
  | unpacked why => cases mem
  | ready failed | pausing failed | overflown failed | cancelled failed => exact absurd mem failed.not_refused
  | attempting failed attempt answers =>
    rcases List.mem_cons.1 mem with begun | mem
    · cases begun
    · exact absurd mem failed.not_refused
  | accepted failed attempt answers | crashed failed attempt answers | abandoned failed attempt =>
    cases (failed.head_of_refused same).2
  | refused failed attempt answers final =>
    obtain ⟨last, this⟩ := failed.head_of_refused same
    cases this
    exact ⟨last, _, rfl⟩
  | exhausted failed attempt answers again many =>
    cases (failed.head_of_refused same).2
    cases again

end Tale

end Sending

/-! ## What can happen to a delivery -/

/-- A delivery with what goes on around it: the clock, the signal, the journal of all deliveries, and the
entries of this one. -/
structure Errand where
  sending : Sending
  now : Time
  cancelled : Bool := false
  journal : Journal
  own : Journal := []

namespace Errand

/-- What happens while a batch is delivered: time passes, the signal is set off, others write into the
journal, or the delivery is looked after. -/
inductive Event where
  | wait (span : Span)
  | signal
  | others (entries : Journal)
  | look
deriving DecidableEq, Repr

/-- The delivery of a parcel that begins now. -/
def start (s : DeliverySettings) (parcel : Parcel) (now : Time) (journal : Journal) : Errand where
  sending := Sending.ofBatch s parcel.batch
  now := now
  journal := journal

/-- The delivery after an event; none when it has nothing to do. -/
def after? (s : DeliverySettings) (seat : Seat) (parcel : Parcel) (d : Errand) : Event → Option Errand
  | .wait span => some { d with now := d.now + span }
  | .signal => some { d with cancelled := true }
  | .others entries => some { d with journal := entries ++ d.journal }
  | .look => (d.sending.step s d.now d.cancelled d.journal seat parcel).map fun (sending, entries) =>
    { d with sending, journal := entries ++ d.journal, own := entries ++ d.own }

/-- A delivery of which its entries tell, and which waits for what its post was answered. -/
structure Sound (s : DeliverySettings) (seat : Seat) (parcel : Parcel) (d : Errand) : Prop where
  tale : d.sending.Tale s seat parcel d.own
  expects : d.sending.Expects s d.journal
  told : ∀ q time finish, .ended q time finish ∈ d.own → d.journal.Tells s q finish

variable {s : DeliverySettings} {seat : Seat} {parcel : Parcel} {d d' : Errand} {e : Event} {events : List Event}

theorem sound_start (s : DeliverySettings) (seat : Seat) (parcel : Parcel) (now : Time) (journal : Journal) :
    (start s parcel now journal).Sound s seat parcel where
  tale := Sending.tale_ofBatch s seat parcel
  expects := Sending.expects_ofBatch s journal parcel.batch
  told := nofun

theorem Sound.after (h : d.Sound s seat parcel) (step : d.after? s seat parcel e = some d') :
    d'.Sound s seat parcel := by
  cases e with
  | wait span | signal =>
    cases step
    exact ⟨h.tale, h.expects, h.told⟩
  | others entries =>
    cases step
    exact ⟨h.tale, h.expects.append entries, fun q time finish mem => (h.told q time finish mem).append entries⟩
  | look =>
    obtain ⟨⟨sending, entries⟩, looks, rfl⟩ := Option.map_eq_some_iff.1 step
    have move := Sending.move_of_step looks
    obtain ⟨expects, told⟩ := move.answered h.expects
    refine ⟨(move.tale h.tale).1, expects, fun q time finish mem => ?_⟩
    rcases List.mem_append.1 mem with mem | mem
    · exact told q time finish mem
    · exact (h.told q time finish mem).append entries

theorem sound_of_leadsTo {now : Time} {journal : Journal}
    (run : LeadsTo (after? s seat parcel) (start s parcel now journal) events d) : d.Sound s seat parcel :=
  run.keeps (Sound s seat parcel) (fun _ _ _ sound step => sound.after step) (sound_start s seat parcel now journal)

end Errand

/-! ## One delivery -/

/-- A delivery that is what it should be: its posts carry one envelope with the text of the batch; a post
follows on another one only when the transport failed to bring that one over and there were not too many; a
post that was refused is the last one; the result counts the posts; and what fails in the packing fails the
delivery before any post. -/
structure Errand.Exact (t : Packing) (unzip : Octets → Option Octets) (key : Option Octets) (s : DeliverySettings)
    (parcel : Parcel) (d : Errand) : Prop where
  same : ∀ p ∈ d.own.posts, ∀ q ∈ d.own.posts, p.envelope = q.envelope
  holds : ∀ q ∈ d.own.posts, Packing.Holds unzip key parcel.batch q.envelope
  follows : ∀ (newer : Journal) (q : Post) (older : Journal), d.own = newer ++ .begun q :: older → older = [] ∨
    ∃ p time reason rest, older = .ended p time (.failed (.unreachable reason)) :: .begun p :: rest ∧
      d.journal.Replied s p (.result (.error (.unreachable reason))) ∧
      older.posts.length < s.policy.maxRetries + 1
  refused : ∀ (newer : Journal) (q : Post) (time : Time) (status : Nat) (body : String) (older : Journal),
    d.own = newer ++ .ended q time (.failed (.refused status body)) :: older → newer = [] ∧
      ∃ n, d.sending.result? = some (.failed (.unsent (.nonRetriable n (.refused status body))))
  delivered : ∀ n, d.sending.result? = some (.delivered n) → n = d.own.posts.length
  failed : ∀ f, d.sending.result? = some (.failed f) → f.attempts = d.own.posts.length
  unpacked : ∀ f, t.Fails key parcel.batch f →
    d.sending.result? = some (.failed (.unpacked f)) ∧ (DeliveryFailure.unpacked f).attempts = 0 ∧ d.own = []

/-- A post of a journal is one of its entries. -/
theorem Journal.exists_of_mem_posts {j : Journal} {q : Post} (mem : q ∈ j.posts) :
    ∃ newer older, j = newer ++ .begun q :: older := by
  obtain ⟨e, here, begun⟩ := List.mem_filterMap.1 mem
  cases e with
  | begun p =>
    cases begun
    exact List.append_of_mem here
  | _ => cases begun

/-- Whatever goes on around the delivery of a batch, and whenever the signal comes: its posts carry one
envelope, which holds the batch and is signed if there is a key, they are repeated only while the transport
fails and not more often than the policy says, and the delivery counts them rightly. A batch that cannot be
packed is not posted. -/
theorem posts_one_envelope (t : Packing) (unzip : Octets → Option Octets) (faithful : t.Faithful unzip)
    (key : Option Octets) (policy : Retry.Policy) (transport : Transport) (seat : Seat) (parcel : Parcel) (now : Time)
    (journal : Journal) (events : List Errand.Event) (d : Errand)
    (run : LeadsTo (Errand.after? (t.settings key policy transport) seat parcel)
      (Errand.start (t.settings key policy transport) parcel now journal) events d) :
    d.Exact t unzip key (t.settings key policy transport) parcel := by
  obtain ⟨tale, expects, told⟩ := Errand.sound_of_leadsTo run
  -- the batch is packed once, and every post carries what came of that
  have packed : ∀ q ∈ d.own.posts, t.pack key parcel.batch = .ok q.envelope := by
    intro q mem
    obtain ⟨newer, older, own⟩ := Journal.exists_of_mem_posts mem
    exact (tale.orderly newer q older own).1
  constructor
  · intro p hp q hq
    exact Except.ok.inj ((packed p hp).symm.trans (packed q hq))
  · exact fun q mem => Packing.pack_eq_ok faithful (packed q mem)
  · intro newer q older own
    rcases (tale.orderly newer q older own).2 with first | ⟨p, time, reason, rest, same, few⟩
    · exact .inl first
    · -- a post is entered as failed only when the transport said that it was
      have mem : .ended p time (.failed (.unreachable reason)) ∈ d.own := by
        rw [own, same]
        exact List.mem_append_right newer (List.mem_cons_of_mem _ List.mem_cons_self)
      exact .inr ⟨p, time, reason, rest, same, (told p time _ mem).failed, few⟩
  · exact fun newer q time status body older own => tale.refused_last own
  · exact tale.attempts_eq.1
  · exact tale.attempts_eq.2
  · intro f fails
    obtain ⟨ends, empty⟩ := tale.unpacked_of_pack fails.pack_eq
    exact ⟨ends, rfl, empty⟩

/-- A transport that fails the first time. -/
def Transport.flaky : Transport
  | [], _ => ⟨some 5, .result (.error (.unreachable "connection refused"))⟩
  | _ :: _, _ => ⟨some 0, .result (.ok ())⟩

/-- A batch that is signed and posted twice, and one that cannot be compressed. -/
theorem posts_one_envelope_twice :
    (∃ (s : DeliverySettings) (events : List Errand.Event) (d : Errand),
      s = Packing.standard.settings (some [107]) { maxRetries := 1 } Transport.flaky ∧
        Packing.standard.Faithful Envelope.Gzip.unpack? ∧
        LeadsTo (Errand.after? s ⟨0, 0⟩ ⟨0, [Record.counter "a" 1]⟩)
          (Errand.start s ⟨0, [Record.counter "a" 1]⟩ 0 []) events d ∧
        (d.own.posts.length = 2 ∧ d.sending.result? = some (.delivered 2)) ∧
        d.Exact Packing.standard Envelope.Gzip.unpack? (some [107]) s ⟨0, [Record.counter "a" 1]⟩) ∧
    ∃ (t : Packing) (s : DeliverySettings) (d : Errand),
      s = t.settings none { maxRetries := 1 } Transport.flaky ∧ t.Faithful Envelope.Gzip.unpack? ∧
        LeadsTo (Errand.after? s ⟨0, 0⟩ ⟨0, [Record.counter "a" 1]⟩)
          (Errand.start s ⟨0, [Record.counter "a" 1]⟩ 0 []) [.signal] d ∧
        t.Fails none [Record.counter "a" 1] (.compression "disk full") ∧
        d.sending.result? = some (.failed (.unpacked (.compression "disk full"))) ∧ d.own = [] ∧
        d.Exact t Envelope.Gzip.unpack? none s ⟨0, [Record.counter "a" 1]⟩ := by
  constructor
  · let s := Packing.standard.settings (some [107]) { maxRetries := 1 } Transport.flaky
    obtain ⟨d, run, facts⟩ := LeadsTo.exists_of_any (Errand.after? s ⟨0, 0⟩ ⟨0, [Record.counter "a" 1]⟩)
      (Errand.start s ⟨0, [Record.counter "a" 1]⟩ 0 [])
      [.look, .wait 5, .look, .wait 1000, .look, .look]
      (fun d => decide (d.own.posts.length = 2 ∧ d.sending.result? = some (.delivered 2)))
      (by decide +kernel)
    have faithful := Packing.standard_faithful
    exact ⟨s, _, d, rfl, faithful, run, of_decide_eq_true facts, posts_one_envelope _ _ faithful _ _ _ _ _ _ _ _ d run⟩
  · let t : Packing := { Packing.standard with compress := fun _ => .error "disk full" }
    let s := t.settings none { maxRetries := 1 } Transport.flaky
    have faithful : t.Faithful Envelope.Gzip.unpack? :=
      ⟨Packing.standard_faithful.write, Packing.standard_faithful.mac, fun _ _ packed => by cases packed⟩
    have fails : t.Fails none [Record.counter "a" 1] (.compression "disk full") := .compression rfl rfl rfl
    have run : LeadsTo (Errand.after? s ⟨0, 0⟩ ⟨0, [Record.counter "a" 1]⟩)
        (Errand.start s ⟨0, [Record.counter "a" 1]⟩ 0 []) [.signal]
        { Errand.start s ⟨0, [Record.counter "a" 1]⟩ 0 [] with cancelled := true } := LeadsTo.single rfl
    have holds := posts_one_envelope t _ faithful none _ _ _ _ _ _ _ _ run
    obtain ⟨ends, -, empty⟩ := holds.unpacked _ fails
    exact ⟨t, s, _, rfl, faithful, run, fails, ends, empty, holds⟩

end Telemetry
