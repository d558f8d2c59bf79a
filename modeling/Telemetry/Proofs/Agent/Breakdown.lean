/-
How tasks of an agent break off when its settings ask for too much. The first report of any run finds a
batcher that has not started yet, so a batch that is too large for the memory is asked for in every run
(`exists_harmed_of_size`). A pause that is too long for a span comes when the collector cannot be reached for
long enough: by then the pause has grown to the first one that does not fit (`exists_harmed_of_pauses`).
-/
import Telemetry.Proofs.Agent.Shutdown
import Telemetry.Proofs.Agent.Unharmed
import Telemetry.Proofs.Run

namespace Telemetry

open Pool (Drain Permits Scene Worker)
open Retry (Call Policy)
open Stage (Batcher Pipeline Source)

/-! ## The first batch of a record -/

namespace Stage.Pipeline

/-- A record on its own becomes a batch on its own, of whatever size batches may be. -/
theorem exists_first_batch {size : Nat} (room : Batcher.fits size = true) (r : Record) :
    ∃ tasks p, LeadsTo (step false size) (ofSources [Source.ofSnapshot [r]]) tasks p ∧
      p.out.items = [[r]] := by
  -- the generator and the forwarder take three steps each: they take the record, pass it on, and end
  let source : Source := { snapshot := [r], task := ⟨[], none, true⟩, out := ⟨[], true, true⟩ }
  let merged : FanIn := { lanes := [{ source, forwarder := .ended }], out := ⟨[r], true, false⟩ }
  have merging : LeadsTo (step false size) (ofSources [Source.ofSnapshot [r]])
      [.feed 0, .feed 0, .feed 0, .forward 0, .forward 0, .forward 0] ⟨merged, .starting, {}⟩ := rfl
  have starts : (⟨merged, .starting, {}⟩ : Pipeline).step false size .batch =
      some ⟨merged, .filling [], {}⟩ := by
    simp [step, Batching.step, batching, room]
  let drained : FanIn := { merged with out := ⟨[], true, false⟩ }
  by_cases small : 1 < Batcher.effective size
  · have takes : (⟨merged, .filling [], {}⟩ : Pipeline).step false size .batch =
        some ⟨drained, .filling [r], {}⟩ := by
      simp [step, Batching.step, batching, merged, drained, Channel.receive, small]
    have sends : LeadsTo (step false size) ⟨drained, .filling [r], {}⟩ [.batch, .batch]
        ⟨drained, .filling [], ⟨[[r]], false, false⟩⟩ := rfl
    exact ⟨_, _, ((merging.trans (.single starts)).trans (.single takes)).trans sends, rfl⟩
  · have takes : (⟨merged, .filling [], {}⟩ : Pipeline).step false size .batch =
        some ⟨drained, .offering [r], {}⟩ := by
      simp [step, Batching.step, batching, merged, drained, Channel.receive, small]
    have sends : LeadsTo (step false size) ⟨drained, .offering [r], {}⟩ [.batch]
        ⟨drained, .filling [], ⟨[[r]], false, false⟩⟩ := rfl
    exact ⟨_, _, ((merging.trans (.single starts)).trans (.single takes)).trans sends, rfl⟩

end Stage.Pipeline

/-- A timer that was late is not due any more once it has gone off. -/
theorem Ticker.isDue_tick {t : Ticker} {now : Time} (pos : 0 < t.period)
    (late : t.next + tolerance < now) : (t.tick now).isDue now = false := by
  have rest : (now - t.next) % t.period < t.period := Nat.mod_lt _ pos
  unfold tick
  rw [if_pos late]
  simp only [isDue, decide_eq_false_iff_not, Nat.not_le]
  exact Nat.lt_sub_of_add_lt (Nat.add_lt_add_left rest now)

namespace Agent

variable {s : AgentSettings} {a₀ a : Agent} {d : Drain}

/-! ## The first report -/

/-- Right after the first report there is one drain, and none of its tasks has taken a step. -/
structure FirstReport (s : AgentSettings) (snapshot : Snapshot) (a : Agent) : Prop where
  drains : a.drains = [Drain.ofStages s.workers (Pipeline.ofSources [Source.ofSnapshot snapshot])]
  signal : a.shared.cancelled = false
  permits : a.shared.permits = { free := Pool.effectiveWorkers s.workers }

/-- When both timers are late, the poll comes first and then the report of it. -/
theorem exists_first_report {t : Schedule} {uptime : Span} {sampler : Sampling.Sampler}
    (launched : (Agent.initial s.workers sampler).launch t uptime = some a₀) (late : Ticker.tolerance < t.report) :
    ∃ a, Reaches s leftAlone a₀ a ∧ FirstReport s sampler.snapshot.1 a := by
  obtain ⟨usable, start⟩ := launch_eq_some_iff.1 launched
  change a₀ = { Agent.initial s.workers sampler with
    course := .running (.start 0 t.poll) (.start 0 t.report) } at start
  have pos : 0 < t.poll := Schedule.poll_pos_of_isUsable usable
  subst start
  obtain ⟨time, moment⟩ : ∃ time : Time, time = t.poll + t.report := ⟨_, rfl⟩
  obtain ⟨poll, first⟩ : ∃ poll : Ticker, poll = .start 0 t.poll := ⟨_, rfl⟩
  obtain ⟨report, second⟩ : ∃ report : Ticker, report = .start 0 t.report := ⟨_, rfl⟩
  have due : poll.isDue time = true := by
    simp [first, moment, Ticker.start, Ticker.isDue]
  have past : (poll.tick time).isDue time = false := by
    apply Ticker.isDue_tick
    · rw [first]
      exact pos
    · rw [first, moment]
      show 0 + t.poll + Ticker.tolerance < t.poll + t.report
      rw [Nat.zero_add]
      exact Nat.add_lt_add_left late _
  have due' : report.isDue time = true := by
    simp [second, moment, Ticker.start, Ticker.isDue]
  rw [← first, ← second]
  let b : Agent := { Agent.initial s.workers sampler with course := .running poll report }
  let c : Agent := b.advance time
  let e : Agent := { c.poll with course := .running (poll.tick time) report }
  have waits : c.now = time := Nat.zero_max _
  have polls : c.step s .own = some e := by
    have off : c.shared.cancelled = false := rfl
    have course : c.course = .running poll report := rfl
    simp only [step, ownStep, course, off, waits, due, Bool.false_eq_true, if_false, if_true]
    rfl
  have reports : e.step s .own = some { e.report s with
      course := .running (poll.tick time) (report.tick time) } := by
    have off : e.shared.cancelled = false := rfl
    have course : e.course = .running (poll.tick time) report := rfl
    have same : e.now = time := waits
    have nonempty : e.pending.isEmpty = false := rfl
    simp only [step, ownStep, course, off, same, past, due', nonempty, Bool.false_eq_true, if_false, if_true]
  have run : Reaches s leftAlone b _ :=
    ((Reaches.refl.next (e := .wait time) rfl rfl).next (b := c) (e := .work .own) rfl polls).next
      (e := .work .own) rfl reports
  exact ⟨_, run, rfl, rfl, rfl⟩

/-! ## One drain alone -/

/-- The stages of the only drain go on. -/
theorem Reaches.stages {tasks : List Pipeline.Task} {p : Pipeline} (run : Reaches s leftAlone a₀ a)
    (only : a.drains = [d]) (off : a.shared.cancelled = false)
    (goes : LeadsTo (Pipeline.step false s.batchSize) d.stages tasks p) :
    Reaches s leftAlone a₀ { a with drains := [{ d with stages := p }] } := by
  induction tasks generalizing a d with
  | nil =>
    obtain rfl := LeadsTo.nil_iff.1 goes
    rw [← only]
    exact run
  | cons task tasks ih =>
    obtain ⟨q, here, rest⟩ := LeadsTo.cons_iff.1 goes
    have moves : a.step s (.drain 0 (.stage task)) =
        some { a with drains := [{ d with stages := q }] } := by
      simp [step, only, Drain.step, off, here]
    have next : Reaches s leftAlone a₀ { a with drains := [{ d with stages := q }] } :=
      run.next (e := .work (.drain 0 (.stage task))) rfl moves
    have further := ih next rfl off rest
    exact further

/-- What the first worker of the only drain sees. -/
def Plays (a : Agent) (x : Scene) : Prop :=
  ∃ d : Drain, a.drains = [d] ∧ d.workers[0]? = some x.worker ∧ d.scene a.shared x.worker = x

theorem Plays.shared {x : Scene} (h : Plays a x) : x.shared = a.shared := by
  obtain ⟨d, -, -, same⟩ := h
  rw [← same]
  rfl

theorem Plays.step {x y : Scene} (h : Plays a x) (run : Reaches s leftAlone a₀ a)
    (goes : x.step s.delivery ⟨0, 0⟩ = some y) : ∃ b, Reaches s leftAlone a₀ b ∧ Plays b y := by
  obtain ⟨d, only, worker, same⟩ := h
  have moves : a.after? s (.work (.drain 0 (.work 0))) =
      some { a with shared := y.shared, drains := [d.withScene 0 y] } := by
    simp [after?, Agent.step, only, Drain.step, worker, same, goes]
  refine ⟨_, run.next rfl moves, d.withScene 0 y, rfl, ?_, rfl⟩
  exact List.getElem?_set_self (List.getElem?_eq_some_iff.1 worker).1

theorem Plays.wait {x : Scene} (h : Plays a x) (run : Reaches s leftAlone a₀ a) (time : Time) :
    ∃ b, Reaches s leftAlone a₀ b ∧
      Plays b { x with shared := { x.shared with now := max x.shared.now time } } := by
  obtain ⟨d, only, worker, same⟩ := h
  have moves : a.after? s (.wait time) = some (a.advance time) := rfl
  refine ⟨_, run.next rfl moves, d, only, worker, ?_⟩
  conv => rhs; rw [← same]
  rfl

/-- The first worker of the only drain delivers with this call, and no signal has come. -/
def Delivers (a : Agent) (call : Call PostFailure Unit) : Prop :=
  ∃ x parcel envelope post, Plays a x ∧
    x.worker.phase = .delivering parcel (.sending envelope call post) ∧ x.shared.cancelled = false

/-- With a batch in front of it and a permit free, a worker that has done nothing yet comes to deliver
it. -/
theorem exists_delivers {x : Scene} {b : Batch} {rest : List Batch} (run : Reaches s leftAlone a₀ a)
    (plays : Plays a x) (phase : x.worker.phase = .seeking) (off : x.shared.cancelled = false)
    (idle : x.inbox.busy = false) (queue : x.inbox.batches.items = b :: rest)
    (free : x.shared.permits.free ≠ 0) (packs : ∃ envelope, s.delivery.pack b = .ok envelope) :
    ∃ c, Reaches s leftAlone a₀ c ∧ Delivers c (Call.initial s.delivery.policy) := by
  obtain ⟨envelope, packed⟩ := packs
  let listening : Scene := { x.withPhase .listening with inbox := { x.inbox with busy := true } }
  have listens : x.step s.delivery ⟨0, 0⟩ = some listening := by
    simp [Scene.step, phase, off, idle, listening]
  let inbox : Pool.Inbox :=
    { batches := { x.inbox.batches with items := rest }, received := x.inbox.received ++ [b], busy := false }
  let carrying : Scene := { x.withPhase (.carrying ⟨x.inbox.received.length, b⟩) with inbox }
  have receives : listening.step s.delivery ⟨0, 0⟩ = some carrying := by
    simp [Scene.step, off, queue, Channel.receive, listening, carrying, inbox, Scene.withPhase]
  let permits : Permits := { x.shared.permits with free := x.shared.permits.free - 1 }
  let delivering : Scene := (carrying.withPermits permits).deliver s.delivery ⟨x.inbox.received.length, b⟩
  have takes : carrying.step s.delivery ⟨0, 0⟩ = some delivering := by
    simp [Scene.step, off, free, Permits.take?, carrying, delivering, permits, Scene.withPhase]
  obtain ⟨a₁, run₁, plays₁⟩ := plays.step run listens
  obtain ⟨a₂, run₂, plays₂⟩ := plays₁.step run₁ receives
  obtain ⟨a₃, run₃, plays₃⟩ := plays₂.step run₂ takes
  refine ⟨a₃, run₃, delivering, ⟨x.inbox.received.length, b⟩, envelope, none, plays₃, ?_, off⟩
  simp [delivering, Scene.deliver, Scene.withPhase, Sending.ofBatch, packed]

namespace Delivers

variable {call next : Call PostFailure Unit}

/-- The delivery takes a step. -/
theorem go (h : Delivers a call) (run : Reaches s leftAlone a₀ a)
    (goes : ∀ journal parcel envelope post, ∃ post' entries,
      (Sending.sending envelope call post).step s.delivery a.now false journal ⟨0, 0⟩ parcel =
        some (.sending envelope next post', entries)) :
    ∃ b, Reaches s leftAlone a₀ b ∧ Delivers b next := by
  obtain ⟨x, parcel, envelope, post, plays, phase, off⟩ := h
  obtain ⟨post', entries, here⟩ := goes x.shared.journal parcel envelope post
  have noResult : (Sending.sending envelope call post).result? = none := by
    cases call with
    | ended n r => cases here
    | crashed n => cases here
    | _ => rfl
  let y : Scene := { x.withPhase (.delivering parcel (.sending envelope next post')) with
    shared := { x.shared with journal := entries ++ x.shared.journal } }
  have moves : x.step s.delivery ⟨0, 0⟩ = some y := by
    have now : x.shared.now = a.now := congrArg _ plays.shared
    rw [← now, ← off] at here
    simp only [Scene.step, phase, noResult, here, Option.map_some]
    rfl
  obtain ⟨b, run', plays'⟩ := plays.step run moves
  exact ⟨b, run', y, parcel, envelope, post', plays', rfl, off⟩

theorem become (h : Delivers a call) (run : Reaches s leftAlone a₀ a)
    (moves : call.move s.delivery.policy PostFailure.classify a.now false = .become next) :
    ∃ b, Reaches s leftAlone a₀ b ∧ Delivers b next := by
  refine h.go run fun journal parcel envelope post => ?_
  simp only [Sending.step, moves]
  exact ⟨_, _, rfl⟩

/-- An attempt to which nobody answers is over at once, and a pause begins when another attempt is
allowed. -/
theorem begin {n : Nat} {pause : Span} {reason : String} (h : Delivers a (.ready n pause))
    (run : Reaches s leftAlone a₀ a) (more : n < s.delivery.policy.maxRetries)
    (nobody : ∀ seen post, s.delivery.transport seen post = ⟨some 0, .result (.error (.unreachable reason))⟩) :
    ∃ b, Reaches s leftAlone a₀ b ∧ Delivers b (.pausing (n + 1) pause (a.now + pause.waited)) := by
  have another : ¬ s.delivery.policy.maxAttempts ≤ n + 1 := by
    unfold Policy.maxAttempts
    omega
  refine h.go run fun journal parcel envelope post => ?_
  simp only [Sending.step, Call.move, nobody, Call.begin, Call.answered, PostFailure.classify, another,
    Bool.false_eq_true, if_false, reduceCtorEq]
  exact ⟨_, _, rfl⟩

theorem wait {call : Call PostFailure Unit} (h : Delivers a call) (run : Reaches s leftAlone a₀ a) (time : Time) :
    ∃ b, Reaches s leftAlone a₀ b ∧ Delivers b call ∧ time ≤ b.now := by
  obtain ⟨x, parcel, envelope, post, plays, phase, off⟩ := h
  obtain ⟨b, run', plays'⟩ := plays.wait run time
  refine ⟨b, run', ⟨_, parcel, envelope, post, plays', phase, off⟩, ?_⟩
  have now : max x.shared.now time = b.now := congrArg (·.now) plays'.shared
  rw [← now]
  exact Nat.le_max_right _ _

/-- A delivery that has broken off takes its worker along. -/
theorem harms {n : Nat} (h : Delivers a (.crashed n)) (run : Reaches s leftAlone a₀ a) :
    ∃ b, Reaches s leftAlone a₀ b ∧ ¬ b.Unharmed s := by
  obtain ⟨x, parcel, envelope, post, plays, phase, off⟩ := h
  have moves : x.step s.delivery ⟨0, 0⟩ = some (x.conclude parcel .crashed) := by
    simp only [Scene.step, phase]
    rfl
  obtain ⟨b, run', d, only, worker, -⟩ := plays.step run moves
  refine ⟨b, run', fun unharmed => ?_⟩
  obtain ⟨alive, -⟩ := unharmed d (only ▸ List.mem_singleton_self d)
  exact alive _ (List.mem_of_getElem? worker) rfl

/-- Nobody can be reached, and the pauses grow until a span cannot hold the next one. -/
theorem exists_harmed {reason : String} (h : Delivers a (Call.initial s.delivery.policy))
    (run : Reaches s leftAlone a₀ a) (short : s.delivery.policy.initial ≤ Span.longest)
    (long : s.delivery.policy.fits = false)
    (nobody : ∀ seen post, s.delivery.transport seen post = ⟨some 0, .result (.error (.unreachable reason))⟩) :
    ∃ b, Reaches s leftAlone a₀ b ∧ ¬ b.Unharmed s := by
  have grows : ∀ n ≤ s.delivery.policy.maxRetries,
      (∃ b, Reaches s leftAlone a₀ b ∧ ¬ b.Unharmed s) ∨
        s.delivery.policy.pause n ≤ Span.longest ∧
          ∃ b, Reaches s leftAlone a₀ b ∧ Delivers b (.ready n (s.delivery.policy.pause n)) := by
    intro n
    induction n with
    | zero =>
      intro _
      right
      rw [Policy.pause_zero]
      exact ⟨short, a, run, h⟩
    | succ n ih =>
      intro few
      rcases ih (Nat.le_of_succ_le few) with harmed | ⟨-, b, runb, ready⟩
      · exact .inl harmed
      obtain ⟨c, runc, pausing⟩ := ready.begin runb few nobody
      obtain ⟨d, rund, pausing, ends⟩ := pausing.wait runc (b.now + (s.delivery.policy.pause n).waited)
      by_cases held : s.delivery.policy.pause (n + 1) ≤ Span.longest
      · right
        refine ⟨held, pausing.become rund ?_⟩
        rw [Policy.pause_succ] at held ⊢
        simp only [Call.move, ends, held, Bool.false_eq_true, if_false, if_true]
      · left
        rw [Policy.pause_succ] at held
        have breaks : (Call.pausing (n + 1) (s.delivery.policy.pause n)
            (b.now + (s.delivery.policy.pause n).waited) : Call PostFailure Unit).move s.delivery.policy
              PostFailure.classify d.now false = .become (.crashed (n + 1)) := by
          simp only [Call.move, ends, held, Bool.false_eq_true, if_false, if_true]
        obtain ⟨e, rune, broken⟩ := pausing.become rund breaks
        exact broken.harms rune
  rcases grows _ le_rfl with harmed | ⟨fits, -⟩
  · exact harmed
  · rw [Policy.fits, decide_eq_false_iff_not] at long
    exact absurd fits long

end Delivers

/-! ## From the launch -/

variable {t : Schedule} {uptime : Span} {sampler : Sampling.Sampler}

/-- Batches that no memory can hold are asked for in every run, whatever is read and whoever answers. -/
theorem exists_harmed_of_size (launched : (Agent.initial s.workers sampler).launch t uptime = some a₀)
    (late : Ticker.tolerance < t.report) (large : Batcher.fits s.batchSize = false) :
    ∃ b, Reaches s leftAlone a₀ b ∧ ¬ b.Unharmed s := by
  obtain ⟨a, run, first⟩ := exists_first_report launched late
  refine ⟨a, run, fun unharmed => ?_⟩
  obtain ⟨-, room⟩ := unharmed _ (first.drains ▸ List.mem_singleton_self _)
  rw [room rfl] at large
  cases large

/-- Pauses that outgrow a span break a delivery off when nobody can be reached. -/
theorem exists_harmed_of_pauses {reason : String}
    (launched : (Agent.initial s.workers ⟨[.pollCounter], []⟩).launch t uptime = some a₀)
    (late : Ticker.tolerance < t.report) (room : Batcher.fits s.batchSize = true)
    (packs : ∀ b, ∃ envelope, s.delivery.pack b = .ok envelope)
    (short : s.delivery.policy.initial ≤ Span.longest) (long : s.delivery.policy.fits = false)
    (nobody : ∀ seen post, s.delivery.transport seen post = ⟨some 0, .result (.error (.unreachable reason))⟩) :
    ∃ b, Reaches s leftAlone a₀ b ∧ ¬ b.Unharmed s := by
  obtain ⟨a, run, first⟩ := exists_first_report launched late
  obtain ⟨tasks, p, batched, out⟩ := Pipeline.exists_first_batch room (.counter "PollCount" 1)
  have later := run.stages first.drains first.signal batched
  have positive := Pool.effectiveWorkers_pos s.workers
  let d : Drain := { stages := p, workers := List.replicate (Pool.effectiveWorkers s.workers) {} }
  have worker : d.workers[0]? = some ({} : Worker) := by
    simp [d, positive]
  have plays : Plays { a with drains := [d] } (d.scene a.shared {}) := ⟨d, rfl, worker, rfl⟩
  have free : (d.scene a.shared {}).shared.permits.free ≠ 0 := by
    show a.shared.permits.free ≠ 0
    rw [first.permits]
    exact Nat.pos_iff_ne_zero.1 positive
  obtain ⟨b, run', delivers⟩ := exists_delivers later plays rfl first.signal rfl out free (packs _)
  exact delivers.exists_harmed run' short long nobody

end Agent

end Telemetry
