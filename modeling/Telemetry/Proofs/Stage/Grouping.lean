/-
A batcher on its own. Its input is fed by hand, in any order with the steps of the batcher and of whoever
receives from it, and the signal may come and the receiver may go at any time (`Grouping`). The batches
that were sent, the one that is offered and the records put together so far are what was taken from the
input, in its order (`Batching.Account`), cut into full batches and a last smaller one (`Batching.Cuts`).
-/
import Telemetry.Proofs.Run
import Telemetry.Proofs.Stage.Cut
import Telemetry.Proofs.Stage.Outlet

namespace Telemetry.Stage

/-! ## What can happen to a batcher -/

/-- A batcher with its history: what was sent on its input, what it has taken from there, the batches it
has put into its output, and those that were received. -/
structure Grouping where
  stage : Batching
  cancelled : Bool := false
  sent : List Record := []
  taken : List Record := []
  passed : List Batch := []
  received : List Batch := []
deriving DecidableEq, Repr

namespace Grouping

/-- What happens to a batcher: the signal is set off, a record is sent, the input is closed, the batcher
takes a step, a batch is received, or the receiver goes. -/
inductive Event where
  | signal
  | send (r : Record)
  | close
  | work
  | receive
  | leave
deriving DecidableEq, Repr

/-- A batcher of which nothing has been done yet. -/
def initial : Grouping := { stage := { input := {} } }

/-- The batcher after an event; none when it cannot happen. -/
def after? (size : Nat) (w : Grouping) : Event → Option Grouping
  | .signal => some { w with cancelled := true }
  | .send r =>
    if w.stage.input.closed || w.stage.input.dropped then none
    else some { w with stage := { w.stage with input := w.stage.input.push r }, sent := w.sent ++ [r] }
  | .close =>
    if w.stage.input.closed then none
    else some { w with stage := { w.stage with input := w.stage.input.close } }
  | .work => (w.stage.step w.cancelled size).map fun stage =>
    { w with
      stage
      taken := w.taken ++ w.stage.input.taken stage.input
      passed := w.passed ++ w.stage.out.added stage.out }
  | .receive => match w.stage.out.receive with
    | (.item b, out) => some { w with stage := { w.stage with out }, received := w.received ++ [b] }
    | _ => none
  | .leave => some { w with stage := { w.stage with out := w.stage.out.drop } }

/-- The output with its history. -/
def outlet (w : Grouping) : Outlet Batch := ⟨w.stage.out, w.passed, w.received⟩

/-- What an event does to a batcher. -/
inductive Change (size : Nat) (w : Grouping) : Grouping → Prop
  | signal : Change size w { w with cancelled := true }
  | send {r : Record} (isOpen : w.stage.input.closed = false) (hears : w.stage.input.dropped = false) :
      Change size w
        { w with stage := { w.stage with input := w.stage.input.push r }, sent := w.sent ++ [r] }
  | close (isOpen : w.stage.input.closed = false) :
      Change size w { w with stage := { w.stage with input := w.stage.input.close } }
  | work {stage : Batching} (step : w.stage.step w.cancelled size = some stage) :
      Change size w { w with
        stage
        taken := w.taken ++ w.stage.input.taken stage.input
        passed := w.passed ++ w.stage.out.added stage.out }
  | receive {b : Batch} {rest : List Batch} (items : w.stage.out.items = b :: rest) :
      Change size w { w with
        stage := { w.stage with out := { w.stage.out with items := rest } }
        received := w.received ++ [b] }
  | leave : Change size w { w with stage := { w.stage with out := w.stage.out.drop } }

/-- Every event is one of the changes. -/
theorem change_of_after {size : Nat} {w w' : Grouping} {e : Event} (h : w.after? size e = some w') :
    w.Change size w' := by
  cases e with
  | signal =>
    cases h
    exact .signal
  | send r =>
    simp only [after?] at h
    split at h
    · cases h
    · rename_i ends
      obtain ⟨isOpen, hears⟩ := Bool.or_eq_false_iff.1 (Bool.not_eq_true _ ▸ ends)
      cases h
      exact .send isOpen hears
  | close =>
    simp only [after?] at h
    split at h
    · cases h
    · rename_i isOpen
      cases h
      exact .close (Bool.not_eq_true _ ▸ isOpen)
  | work =>
    obtain ⟨stage, step, rfl⟩ := Option.map_eq_some_iff.1 h
    exact .work step
  | receive =>
    simp only [after?] at h
    split at h
    · rename_i b out got
      obtain ⟨rest, items, rfl⟩ := Channel.items_of_receive got
      cases h
      exact .receive items
    · cases h
  | leave =>
    cases h
    exact .leave

end Grouping

/-! ## What is known of a batcher -/

/-- What was taken from the input of a batcher is in its batches or put together, and the rest is still
there. A batcher that has ended on its own (`regular`) has sent everything. -/
structure Batching.Account (regular : Prop) (b : Batching) (sent taken : List Record) (passed : List Batch) :
    Prop where
  live : b.task ≠ .ended → passed.flatten ++ b.task.hand = taken ∧ taken ++ b.input.items = sent
  ended : b.task = .ended → b.input.items = [] ∧ passed.flatten <+: taken ∧ taken <+: sent
  dropped : b.input.dropped = true ↔ b.task = .ended
  closed : b.out.closed = true ↔ b.task = .ended
  done : regular → b.task = .ended → b.input.closed = true ∧ passed.flatten = sent

/-- The batches of a batcher are full, but for a last one that holds what was left when the input was at
its end. -/
structure Batching.Cuts (size : Nat) (b : Batching) (sent : List Record) (passed : List Batch) : Prop where
  cut : ∃ full short, IsCut size (passed ++ b.task.offer?.toList) full short ∧
    (short ≠ none → b.input.closed = true ∧ (passed ++ b.task.offer?.toList).flatten = sent)
  room : b.task.buffer.length < Batcher.effective size

namespace Batching

variable {regular still : Prop} {size : Nat} {cancelled : Bool} {b c : Batching} {sent taken : List Record}
  {passed : List Batch}

/-- A batcher that takes a step has not ended. -/
theorem Move.runs (m : b.Move cancelled size c) : b.task ≠ .ended := by
  cases m with
  | finish live why => exact live
  | start task | fill task items few | complete task items full | last task nonempty items closed
  | send task listens =>
    rw [task]
    exact Batcher.noConfusion

/-- A batcher puts a batch into its output only when there is a place and somebody to take it. -/
theorem output_of_step (h : b.step cancelled size = some c) :
    (c.out.items = b.out.items ∧ c.out.dropped = b.out.dropped) ∨
      ∃ batch, b.out.hasRoom = true ∧ b.out.dropped = false ∧ c.out = b.out.push batch := by
  unfold step at h
  split at h
  · cases h
  · split at h <;> cases h <;> exact .inl ⟨rfl, rfl⟩
  · split at h
    · cases h
      exact .inl ⟨rfl, rfl⟩
    · split at h
      · dsimp only at h
        split at h <;> cases h <;> exact .inl ⟨rfl, rfl⟩
      · split at h <;> cases h <;> exact .inl ⟨rfl, rfl⟩
      · cases h
  · rename_i batch task
    split at h
    · cases h
      exact .inl ⟨rfl, rfl⟩
    · split at h
      · cases h
        exact .inl ⟨rfl, rfl⟩
      · rename_i listens
        split at h
        · rename_i room
          cases h
          exact .inr ⟨batch, room, by simpa using listens, rfl⟩
        · cases h

theorem Account.mono (h : b.Account regular sent taken passed) (weaker : still → regular) :
    b.Account still sent taken passed :=
  ⟨h.live, h.ended, h.dropped, h.closed, fun now => h.done (weaker now)⟩

theorem Account.begins (h : b.Account regular sent taken passed) : passed.flatten <+: taken ∧ taken <+: sent := by
  by_cases live : b.task = .ended
  · exact (h.ended live).2
  · obtain ⟨held, left⟩ := h.live live
    exact ⟨⟨_, held⟩, ⟨_, left⟩⟩

/-- A batcher that goes on working keeps its ends as they are. -/
theorem Account.working {sent' taken' : List Record} {passed' : List Batch}
    (h : b.Account regular sent taken passed) (before : b.task ≠ .ended) (after : c.task ≠ .ended)
    (input : c.input.dropped = b.input.dropped) (out : c.out.closed = b.out.closed)
    (held : passed'.flatten ++ c.task.hand = taken') (left : taken' ++ c.input.items = sent') :
    c.Account regular sent' taken' passed' where
  live _ := ⟨held, left⟩
  ended stopped := absurd stopped after
  dropped := by
    rw [input, h.dropped]
    exact iff_of_false before after
  closed := by
    rw [out, h.closed]
    exact iff_of_false before after
  done _ stopped := absurd stopped after

/-- Others do something with the ends of a batcher. -/
theorem Account.ends (h : b.Account regular sent taken passed) (task : c.task = b.task)
    (items : c.input.items = b.input.items) (input : c.input.dropped = b.input.dropped)
    (out : c.out.closed = b.out.closed) (closed : b.input.closed = true → c.input.closed = true) :
    c.Account regular sent taken passed := by
  obtain ⟨live, ended, dropped, closes, done⟩ := h
  rw [← task] at live ended dropped closes done
  rw [← items] at live ended
  exact ⟨live, ended, input ▸ dropped, out ▸ closes, fun now ended => ⟨closed (done now ended).1, (done now ended).2⟩⟩

/-- A record is taken from the input and put to the others. -/
theorem Account.read {r : Record} {rest : List Record} {buffer : Batch} {t : Batcher}
    (h : b.Account regular sent taken passed) (task : b.task = .filling buffer) (items : b.input.items = r :: rest)
    (works : t ≠ .ended) (hand : t.hand = buffer ++ [r]) :
    ({ b with input := { b.input with items := rest }, task := t } : Batching).Account regular sent
      (taken ++ [r]) passed := by
  have runs : b.task ≠ .ended := by
    rw [task]
    exact Batcher.noConfusion
  obtain ⟨held, left⟩ := h.live runs
  rw [task] at held
  rw [items, List.append_cons] at left
  refine h.working runs works rfl rfl ?_ left
  show passed.flatten ++ t.hand = taken ++ [r]
  rw [hand, ← List.append_assoc]
  exact congrArg (· ++ [r]) held

theorem Account.move (h : b.Account regular sent taken passed) (m : b.Move cancelled size c)
    (calm : regular → cancelled = false ∧ b.out.dropped = false ∧ Batcher.fits size = true) :
    c.Account regular sent (taken ++ b.input.taken c.input) (passed ++ b.out.added c.out) := by
  have runs := m.runs
  obtain ⟨held, left⟩ := h.live runs
  have hears : b.input.dropped = false := by
    rw [← Bool.not_eq_true, h.dropped]
    exact runs
  cases m with
  | finish live why =>
    show b.finish.Account regular sent (taken ++ b.input.taken b.input.drop) (passed ++ b.out.added b.out.close)
    rw [Channel.taken_drop, Channel.added_close, List.append_nil, List.append_nil]
    refine ⟨fun live => absurd rfl live, fun _ => ⟨rfl, h.begins⟩, iff_of_true rfl rfl, iff_of_true rfl rfl,
      fun now _ => ?_⟩
    obtain ⟨quiet, listens, fits⟩ := calm now
    rcases why with ⟨task, items, closed⟩ | signal | large | gone
    · rw [task] at held
      rw [items, List.append_nil] at left
      exact ⟨closed, (List.append_nil _).symm.trans (held.trans left)⟩
    · exact absurd (signal.symm.trans quiet) Bool.noConfusion
    · exact absurd (fits.symm.trans large) Bool.noConfusion
    · exact absurd (gone.symm.trans listens) Bool.noConfusion
  | start task =>
    rw [task] at held
    rw [Channel.taken_of_same rfl, Channel.added_self, List.append_nil, List.append_nil]
    exact h.working runs Batcher.noConfusion rfl rfl held left
  | @fill r rest buffer task items short =>
    rw [Channel.taken_rest items hears, Channel.added_self, List.append_nil]
    exact h.read task items Batcher.noConfusion rfl
  | @complete r rest buffer task items full =>
    rw [Channel.taken_rest items hears, Channel.added_self, List.append_nil]
    exact h.read task items Batcher.noConfusion rfl
  | last task nonempty items closed =>
    rw [task] at held
    rw [Channel.taken_of_same rfl, Channel.added_self, List.append_nil, List.append_nil]
    exact h.working runs Batcher.noConfusion rfl rfl held left
  | @send batch task listens =>
    rw [task] at held
    rw [Channel.taken_of_same rfl, Channel.added_push, List.append_nil]
    refine h.working runs Batcher.noConfusion rfl rfl ?_ left
    rw [List.flatten_append, List.flatten_singleton]
    exact (List.append_nil _).trans held

/-- What was taken from the input is in batches, or put together. -/
theorem Account.held (h : b.Account regular sent taken passed) (live : b.task ≠ .ended) :
    (passed ++ b.task.offer?.toList).flatten ++ b.task.buffer = taken := by
  rw [← (h.live live).1, List.flatten_append, List.append_assoc]
  refine congrArg (passed.flatten ++ ·) ?_
  cases b.task <;> simp [Batcher.hand, Batcher.offer?, Batcher.buffer]

/-- Batches that hold everything that was sent leave nothing for another one. -/
theorem Account.nothing_left (h : b.Account regular sent taken passed) (live : b.task ≠ .ended)
    (all : (passed ++ b.task.offer?.toList).flatten = sent) :
    b.task.buffer = [] ∧ b.input.items = [] ∧ taken = sent := by
  have held := h.held live
  have left := (h.live live).2
  rw [all] at held
  rw [← held, List.append_assoc] at left
  obtain ⟨buffer, items⟩ := List.append_eq_nil_iff.1 (List.append_right_eq_self.1 left)
  exact ⟨buffer, items, by rw [← held, buffer, List.append_nil]⟩

theorem Account.all_taken (h : b.Account regular sent taken passed)
    (all : (passed ++ b.task.offer?.toList).flatten = sent) : b.input.items = [] ∧ taken = sent := by
  by_cases ended : b.task = .ended
  · obtain ⟨items, begins, read⟩ := h.ended ended
    rw [ended, show passed ++ Batcher.ended.offer?.toList = passed from List.append_nil _] at all
    exact ⟨items, read.eq_of_length_le (all ▸ begins.length_le)⟩
  · exact (h.nothing_left ended all).2

/-- A batcher that has ended on its own has taken everything, and sent it. -/
theorem Account.all_of_ended (h : b.Account regular sent taken passed) (calm : regular) (ended : b.task = .ended) :
    passed.flatten = taken ∧ taken = sent := by
  obtain ⟨begins, read⟩ := h.begins
  have all := (h.done calm ended).2
  have whole : taken = sent := read.eq_of_length_le (all ▸ begins.length_le)
  exact ⟨all.trans whole.symm, whole⟩

/-- A batcher that has something for another batch has cut full ones only. -/
theorem Cuts.whole (h : b.Cuts size sent passed) (account : b.Account regular sent taken passed)
    (live : b.task ≠ .ended) (more : b.task.buffer ≠ [] ∨ b.input.items ≠ []) :
    ∃ full, IsCut size (passed ++ b.task.offer?.toList) full none := by
  obtain ⟨full, short, cut, all⟩ := h.cut
  cases last : short with
  | none => exact ⟨full, last ▸ cut⟩
  | some rest =>
    obtain ⟨buffer, items, -⟩ := account.nothing_left live (all (by simp [last])).2
    rcases more with more | more
    · exact absurd buffer more
    · exact absurd items more

/-- Others do something with the ends of a batcher. -/
theorem Cuts.ends (h : b.Cuts size sent passed) (task : c.task = b.task)
    (closed : b.input.closed = true → c.input.closed = true) : c.Cuts size sent passed := by
  obtain ⟨⟨full, short, cut, all⟩, room⟩ := h
  rw [← task] at cut all room
  exact ⟨⟨full, short, cut, fun remains => ⟨closed (all remains).1, (all remains).2⟩⟩, room⟩

theorem Cuts.move (h : b.Cuts size sent passed) (account : b.Account regular sent taken passed)
    (m : b.Move cancelled size c) : c.Cuts size sent (passed ++ b.out.added c.out) := by
  have pos := Batcher.effective_pos size
  have room := h.room
  cases m with
  | finish live why =>
    show b.finish.Cuts size sent (passed ++ b.out.added b.out.close)
    rw [Channel.added_close, List.append_nil]
    refine ⟨?_, pos⟩
    obtain ⟨full, short, cut, all⟩ := h.cut
    cases offer : b.task.offer? with
    | none =>
      rw [offer] at cut all
      exact ⟨full, short, cut, all⟩
    | some batch =>
      -- the batch that is offered gets lost
      rw [offer] at cut
      obtain ⟨full', cut⟩ := cut.init
      refine ⟨full', none, ?_, fun remains => absurd rfl remains⟩
      show IsCut size (passed ++ []) full' none
      rwa [List.append_nil]
  | start task =>
    obtain ⟨full, short, cut, all⟩ := h.cut
    rw [task] at cut all
    rw [Channel.added_self, List.append_nil]
    exact ⟨⟨full, short, cut, all⟩, pos⟩
  | @fill r rest buffer task items short =>
    obtain ⟨full, cut⟩ := h.whole account (by simp [task]) (.inr (by simp [items]))
    rw [task] at cut
    rw [Channel.added_self, List.append_nil]
    refine ⟨⟨full, none, cut, fun remains => absurd rfl remains⟩, ?_⟩
    show (buffer ++ [r]).length < _
    rwa [List.length_append]
  | @complete r rest buffer task items enough =>
    obtain ⟨full, cut⟩ := h.whole account (by simp [task]) (.inr (by simp [items]))
    rw [task] at cut room
    rw [Channel.added_self, List.append_nil]
    -- a batch is offered once it is full, so it never grows beyond its size
    have whole : (buffer ++ [r]).length = Batcher.effective size := by
      have few : buffer.length < Batcher.effective size := room
      rw [List.length_append, List.length_singleton]
      omega
    simp only [Batcher.offer?, Option.toList_none, List.append_nil] at cut
    exact ⟨⟨full ++ [buffer ++ [r]], none, cut.complete whole, fun remains => absurd rfl remains⟩, pos⟩
  | @last buffer task nonempty items closed =>
    obtain ⟨full, cut⟩ := h.whole account (by simp [task]) (.inl (by rwa [task]))
    obtain ⟨held, left⟩ := account.live (by simp [task])
    rw [task] at cut room held
    rw [Channel.added_self, List.append_nil]
    simp only [Batcher.offer?, Option.toList_none, List.append_nil] at cut
    refine ⟨⟨full, some buffer, cut.finish nonempty room, fun _ => ⟨closed, ?_⟩⟩, pos⟩
    rw [items, List.append_nil] at left
    show (passed ++ [buffer]).flatten = sent
    rw [List.flatten_append, List.flatten_singleton, ← left]
    exact held
  | @send batch task listens =>
    obtain ⟨full, short, cut, all⟩ := h.cut
    rw [task] at cut all
    rw [Channel.added_push]
    refine ⟨⟨full, short, ?_, fun remains => ?_⟩, pos⟩
    · show IsCut size (passed ++ [batch] ++ []) full short
      rw [List.append_nil]
      exact cut
    · show b.input.closed = true ∧ (passed ++ [batch] ++ []).flatten = sent
      rw [List.append_nil]
      exact all remains

end Batching

namespace Grouping

/-- A batcher that has lost nothing but what it threw away when it was stopped. -/
structure Sound (size : Nat) (w : Grouping) : Prop where
  account : w.stage.Account
    (w.cancelled = false ∧ w.stage.out.dropped = false ∧ Batcher.fits size = true) w.sent w.taken w.passed
  cuts : w.stage.Cuts size w.sent w.passed
  outlet : w.outlet.Sound

variable {size : Nat} {w w' : Grouping} {e : Event} {events : List Event}

/-- What was not given up afterwards had not been given up before. -/
theorem Change.quiet (h : w.Change size w') :
    (w'.cancelled = false → w.cancelled = false) ∧
      (w'.stage.out.dropped = false → w.stage.out.dropped = false) := by
  cases h with
  | signal => exact ⟨fun quiet => Bool.noConfusion quiet, id⟩
  | send isOpen hears | close isOpen | receive items => exact ⟨id, id⟩
  | work step =>
    refine ⟨id, fun listens => ?_⟩
    rcases Batching.output_of_step step with ⟨-, dropped⟩ | ⟨b, -, hears, -⟩
    · exact dropped ▸ listens
    · exact hears
  | leave => exact ⟨id, fun listens => Bool.noConfusion listens⟩

theorem sound_initial (size : Nat) : initial.Sound size where
  account := ⟨fun _ => ⟨rfl, rfl⟩, nofun, by simp [initial], by simp [initial], nofun⟩
  cuts := ⟨⟨[], none, ⟨rfl, nofun, nofun⟩, fun remains => absurd rfl remains⟩, Batcher.effective_pos size⟩
  outlet := Outlet.sound_empty

/-- A record is sent to a batcher that still reads. -/
theorem Sound.send (h : w.Sound size) (isOpen : w.stage.input.closed = false)
    (hears : w.stage.input.dropped = false) (r : Record) :
    ({ w with stage := { w.stage with input := w.stage.input.push r }, sent := w.sent ++ [r] } :
      Grouping).Sound size := by
  have runs : w.stage.task ≠ .ended := by
    rw [ne_eq, ← h.account.dropped, hears]
    exact Bool.noConfusion
  obtain ⟨held, left⟩ := h.account.live runs
  obtain ⟨full, short, cut, all⟩ := h.cuts.cut
  refine ⟨h.account.working runs runs rfl rfl held ?_, ⟨⟨full, short, cut, fun remains => ?_⟩, h.cuts.room⟩, h.outlet⟩
  · show w.taken ++ (w.stage.input.items ++ [r]) = w.sent ++ [r]
    rw [← List.append_assoc, left]
  · exact absurd ((all remains).1.symm.trans isOpen) Bool.noConfusion

/-- Every change keeps a batcher sound. -/
theorem Sound.change (h : w.Sound size) (change : w.Change size w') : w'.Sound size := by
  cases change with
  | signal => exact ⟨h.account.mono fun calm => absurd calm.1 Bool.noConfusion, h.cuts, h.outlet⟩
  | @send r isOpen hears => exact h.send isOpen hears r
  | close isOpen => exact ⟨h.account.ends rfl rfl rfl rfl fun _ => rfl, h.cuts.ends rfl fun _ => rfl, h.outlet⟩
  | work step =>
    have move := Batching.move_of_step step
    have output := Batching.output_of_step step
    refine ⟨(h.account.move move id).mono fun calm => ?_, h.cuts.move h.account move, h.outlet.step output⟩
    rcases output with ⟨-, dropped⟩ | ⟨batch, -, listens, -⟩
    · exact ⟨calm.1, dropped ▸ calm.2.1, calm.2.2⟩
    · exact ⟨calm.1, listens, calm.2.2⟩
  | receive items => exact ⟨h.account.ends rfl rfl rfl rfl id, h.cuts.ends rfl id, h.outlet.receive items⟩
  | leave =>
    refine ⟨(h.account.mono ?_).ends rfl rfl rfl rfl id, h.cuts.ends rfl id, h.outlet.drop⟩
    exact fun calm => absurd calm.2.1 Bool.noConfusion

theorem sound_of_leadsTo (run : LeadsTo (after? size) initial events w) : w.Sound size :=
  run.keeps (Sound size) (fun _ _ _ sound step => sound.change (change_of_after step)) (sound_initial size)

end Grouping

end Telemetry.Stage
