/-
The output of a batcher is its input, cut into full batches with a smaller one at the end perhaps, however
the input is fed and the batcher takes its turns, as long as nobody stops it (`Grouping.Chunked`). Once the
input is closed there are only so many steps left (`Grouping.toDo`), and they bring the last batch to the
receiver and the end of the stream behind it (`input_is_chunked`).
-/
import Telemetry.Proofs.Stage.Grouping
import Telemetry.Proofs.Stage.Linked

namespace Telemetry.Stage

/-! ## The steps that are left -/

/-- More than the steps that a batcher takes before it waits for a record again. -/
def Batcher.toDo : Batcher → Nat
  | starting => 2
  | filling [] => 1
  | filling (_ :: _) => 4
  | offering _ => 3
  | ended => 0

/-- The steps of a batcher, and of whoever receives from it, that its records are good for. -/
def Batching.toDo (b : Batching) : Nat :=
  -- a record is taken and cut off, and it is sent and received with its batch
  4 * b.input.items.length + b.out.items.length + b.task.toDo

theorem Batcher.toDo_pos {t : Batcher} (live : t ≠ .ended) : 0 < t.toDo := by
  cases t with
  | ended => exact absurd rfl live
  | filling buffer => cases buffer <;> simp [toDo]
  | starting | offering batch => simp [toDo]

theorem Batcher.toDo_filling_le (buffer : Batch) : (filling buffer).toDo ≤ 4 := by
  cases buffer <;> simp [toDo]

/-- Every step of a batcher is one of those that are left. -/
theorem Batching.Move.toDo_lt {cancelled : Bool} {size : Nat} {b c : Batching} (m : b.Move cancelled size c) :
    c.toDo < b.toDo := by
  unfold toDo
  cases m with
  | finish live why =>
    have pos := Batcher.toDo_pos live
    show 4 * 0 + b.out.items.length + 0 < _
    omega
  | start task =>
    rw [task]
    exact Nat.add_lt_add_left (Nat.lt_succ_self 1) _
  | @fill r rest buffer task items short =>
    rw [task, items, List.length_cons]
    have pos := Batcher.toDo_pos (t := .filling buffer) Batcher.noConfusion
    have most := Batcher.toDo_filling_le (buffer ++ [r])
    show 4 * rest.length + b.out.items.length + (Batcher.filling (buffer ++ [r])).toDo < _
    omega
  | @complete r rest buffer task items full =>
    rw [task, items, List.length_cons]
    show 4 * rest.length + b.out.items.length + 3 < _
    omega
  | @last buffer task nonempty items closed =>
    rw [task]
    cases buffer with
    | nil => exact absurd rfl nonempty
    | cons r buffer => exact Nat.add_lt_add_left (Nat.lt_succ_self 3) _
  | @send batch task listens =>
    rw [task]
    show 4 * b.input.items.length + (b.out.items ++ [batch]).length + 1 < _ + 3
    rw [List.length_append, List.length_singleton]
    omega

namespace Grouping

variable {size : Nat} {w w' : Grouping} {e : Event} {events later : List Event}

/-- The steps that are left when nothing is sent to a batcher any more. -/
def toDo (w : Grouping) : Nat := w.stage.toDo

/-- Once its input is closed a batcher uses up what it has. -/
theorem Change.uses (h : w.Change size w') (closed : w.stage.input.closed = true)
    (quiet : w'.cancelled = false) (listens : w'.stage.out.dropped = false) :
    w'.stage.input.closed = true ∧ w'.sent = w.sent ∧ w'.toDo < w.toDo := by
  cases h with
  | signal => cases quiet
  | send isOpen hears => exact absurd (closed.symm.trans isOpen) Bool.noConfusion
  | close isOpen => exact absurd (closed.symm.trans isOpen) Bool.noConfusion
  | work step =>
    have move := Batching.move_of_step step
    refine ⟨?_, rfl, move.toDo_lt⟩
    cases move <;> exact closed
  | @receive b rest items =>
    refine ⟨closed, rfl, ?_⟩
    show 4 * w.stage.input.items.length + rest.length + w.stage.task.toDo <
      4 * w.stage.input.items.length + w.stage.out.items.length + w.stage.task.toDo
    rw [items, List.length_cons]
    omega
  | leave => cases listens

/-- Once the input is closed, nothing more is sent, and there are only so many steps left. -/
theorem bound_of_closed (closed : w.stage.input.closed = true) (run : LeadsTo (after? size) w later w')
    (quiet : w'.cancelled = false) (listens : w'.stage.out.dropped = false) :
    (w'.stage.input.closed = true ∧ w'.sent = w.sent) ∧ later.length + w'.toDo ≤ w.toDo := by
  refine run.length_le (fun v => v.stage.input.closed = true ∧ v.sent = w.sent)
    (fun v => v.cancelled = false ∧ v.stage.out.dropped = false) toDo ?_ ?_ ⟨closed, rfl⟩ ⟨quiet, listens⟩
  · rintro a e b step ⟨quiet, listens⟩
    have change := change_of_after step
    exact ⟨change.quiet.1 quiet, change.quiet.2 listens⟩
  · rintro a e b ⟨closed, same⟩ step ⟨quiet, listens⟩
    obtain ⟨still, sent, less⟩ := (change_of_after step).uses closed quiet listens
    exact ⟨⟨still, sent.trans same⟩, less⟩

/-! ## The end of the stream -/

/-- A batcher that can do nothing although its input is closed and its output is empty has ended. -/
theorem ended_of_stuck (quiet : w.cancelled = false) (closed : w.stage.input.closed = true)
    (items : w.stage.out.items = []) (stuck : w.after? size .work = none) : w.stage.task = .ended := by
  have still : w.stage.step false size = none := by
    rw [← quiet]
    exact Option.map_eq_none_iff.1 stuck
  rcases Batching.ended_or_waits_of_stuck (.inl (Channel.hasRoom_of_empty items)) still with ended | ⟨-, isOpen⟩
  · exact ended
  · exact absurd (closed.symm.trans isOpen) Bool.noConfusion

theorem items_of_stuck (stuck : w.after? size .receive = none) : w.stage.out.items = [] := by
  cases items : w.stage.out.items with
  | nil => rfl
  | cons b rest => simp [after?, Channel.receive, items] at stuck

/-- A batcher that has ended on its own, and whose batches were received, has sent its input, cut into
batches. -/
theorem Sound.finished (h : w.Sound size) (quiet : w.cancelled = false) (listens : w.stage.out.dropped = false)
    (fits : Batcher.fits size = true) (ended : w.stage.task = .ended) (items : w.stage.out.items = []) :
    w.stage.input.closed = true ∧ w.received = Batcher.chunks size w.sent ∧
      w.received.length = Batcher.count size w.sent.length := by
  obtain ⟨closed, all⟩ := h.account.done ⟨quiet, listens, fits⟩ ended
  have received : w.received ++ w.stage.out.items = w.passed := h.outlet.kept listens
  rw [items, List.append_nil] at received
  obtain ⟨full, short, cut, -⟩ := h.cuts.cut
  rw [ended] at cut
  rw [show w.passed ++ Batcher.ended.offer?.toList = w.passed from List.append_nil _, ← received] at cut
  rw [← received] at all
  exact ⟨closed, all ▸ cut.eq_chunks, all ▸ cut.length_eq⟩

/-! ## The whole stream -/

/-- A batcher whose batches are its input, cut: what was received, what waits in the output, what is
offered and what is put together are what was taken from the input; every batch is full but a last one,
which comes when the input is closed and nothing is left there, and none is empty; a batch is never
overfull, and while one is offered nothing is taken; the output ends when all has been received. -/
structure Chunked (size : Nat) (w : Grouping) : Prop where
  records : (w.received ++ w.stage.out.items ++ w.stage.task.offer?.toList).flatten ++ w.stage.task.buffer = w.taken
  input : w.taken ++ w.stage.input.items = w.sent
  cut : ∃ full short, IsCut size (w.received ++ w.stage.out.items ++ w.stage.task.offer?.toList) full short ∧
    (short ≠ none → w.stage.input.closed = true ∧ w.stage.input.items = [] ∧ w.taken = w.sent)
  filled : ∀ b ∈ w.received ++ w.stage.out.items ++ w.stage.task.offer?.toList, b ≠ []
  room : w.stage.task.buffer.length < Batcher.effective size
  offered : ∀ b, w.stage.task = .offering b → ∀ e w', w.after? size e = some w' → w'.cancelled = false →
    w'.stage.out.dropped = false →
      w'.taken = w.taken ∧ (w'.stage.task = .offering b ∨ w'.stage.out = w.stage.out.push b)
  ends : w.stage.out.receive.1 = .finished → w.stage.input.closed = true ∧
    w.received = Batcher.chunks size w.sent ∧ w.received.length = Batcher.count size w.sent.length

/-- While a batch is offered nothing is taken from the input. -/
theorem Change.offers (h : w.Change size w') (fits : Batcher.fits size = true) {b : Batch}
    (task : w.stage.task = .offering b) (quiet : w'.cancelled = false) (listens : w'.stage.out.dropped = false) :
    w'.taken = w.taken ∧ (w'.stage.task = .offering b ∨ w'.stage.out = w.stage.out.push b) := by
  cases h with
  | signal | send isOpen hears | close isOpen | receive items | leave => exact ⟨rfl, .inl task⟩
  | work step =>
    have still : ∀ input : Channel Record, input.items = w.stage.input.items →
        w.taken ++ w.stage.input.taken input = w.taken := fun input same => by
      rw [Channel.taken_of_same same, List.append_nil]
    cases Batching.move_of_step step with
    | finish live why =>
      rcases why with ⟨filling, -⟩ | signal | large | gone
      · cases task.symm.trans filling
      · exact absurd (signal.symm.trans quiet) Bool.noConfusion
      · exact absurd (fits.symm.trans large) Bool.noConfusion
      · exact absurd (gone.symm.trans listens) Bool.noConfusion
    | start starting => cases task.symm.trans starting
    | fill filling items short => cases task.symm.trans filling
    | complete filling items full => cases task.symm.trans filling
    | last filling nonempty items closed => cases task.symm.trans filling
    | send offering hears =>
      cases task.symm.trans offering
      exact ⟨still _ rfl, .inr rfl⟩

theorem Sound.chunked (h : w.Sound size) (quiet : w.cancelled = false) (listens : w.stage.out.dropped = false)
    (fits : Batcher.fits size = true) : w.Chunked size := by
  have calm : w.cancelled = false ∧ w.stage.out.dropped = false ∧ Batcher.fits size = true := ⟨quiet, listens, fits⟩
  have kept : w.received ++ w.stage.out.items = w.passed := h.outlet.kept listens
  obtain ⟨full, short, cut, all⟩ := h.cuts.cut
  constructor
  · rw [kept]
    by_cases ended : w.stage.task = .ended
    · rw [ended, ← (h.account.all_of_ended calm ended).1]
      simp [Batcher.offer?, Batcher.buffer]
    · exact h.account.held ended
  · by_cases ended : w.stage.task = .ended
    · rw [(h.account.ended ended).1, List.append_nil]
      exact (h.account.all_of_ended calm ended).2
    · exact (h.account.live ended).2
  · rw [kept]
    refine ⟨full, short, cut, fun remains => ?_⟩
    obtain ⟨closed, sent⟩ := all remains
    exact ⟨closed, h.account.all_taken sent⟩
  · rw [kept]
    exact fun b mem => cut.ne_nil mem
  · exact h.cuts.room
  · exact fun b task e w' step quiet listens => (change_of_after step).offers fits task quiet listens
  · intro finished
    obtain ⟨items, closed⟩ := Channel.finished_of_receive (Prod.ext finished rfl)
    exact h.finished quiet listens fits (h.account.closed.1 closed) items

end Grouping

/-- However records are sent to a batcher, the input is closed, the batcher takes steps and its output is
received from, while the signal does not come and the receiver stays, the batches are what was taken from
the input, in its order: full ones, and a last smaller one when the input has ended. Once the input is
closed there are only so many steps left; when none of them can be taken any more, the receiver has as many
batches as the records need, and is told that no other will come. -/
theorem input_is_chunked (size : Nat) (fits : Batcher.fits size = true) (events : List Grouping.Event)
    (w : Grouping) (run : LeadsTo (Grouping.after? size) Grouping.initial events w) (quiet : w.cancelled = false)
    (listens : w.stage.out.dropped = false) :
    w.Chunked size ∧ (w.stage.input.closed = true → ∀ (later : List Grouping.Event) (w' : Grouping),
      LeadsTo (Grouping.after? size) w later w' → w'.cancelled = false → w'.stage.out.dropped = false →
        w'.sent = w.sent ∧ later.length ≤ w.toDo ∧
          (w'.after? size .work = none → w'.after? size .receive = none →
            w'.stage.out.receive.1 = .finished ∧ w'.received = Batcher.chunks size w.sent ∧
              w'.received.length = Batcher.count size w.sent.length)) := by
  have sound := Grouping.sound_of_leadsTo run
  refine ⟨sound.chunked quiet listens fits, fun closed later w' run' quiet' listens' => ?_⟩
  obtain ⟨⟨still, sent⟩, bound⟩ := Grouping.bound_of_closed closed run' quiet' listens'
  refine ⟨sent, Nat.le_trans (Nat.le_add_right _ _) bound, fun works receives => ?_⟩
  have sound' := Grouping.sound_of_leadsTo (run.trans run')
  have items := Grouping.items_of_stuck receives
  have ended := Grouping.ended_of_stuck quiet' still items works
  have finished := Channel.receive_of_empty items (sound'.account.closed.2 ended)
  exact ⟨finished, sent ▸ (sound'.finished quiet' listens' fits ended items).2⟩

/-- Three records, two to a batch, of which the last one waits until the input is closed. -/
theorem input_is_chunked_three :
    ∃ (events : List Grouping.Event) (w : Grouping), Batcher.fits 2 = true ∧
      LeadsTo (Grouping.after? 2) Grouping.initial events w ∧
        (w.cancelled = false ∧ w.stage.out.dropped = false) ∧
        (w.stage.task = .filling [Record.counter "c" 3] ∧ w.stage.input.closed = true ∧
          w.received = [[Record.counter "a" 1, Record.counter "b" 2]]) ∧ w.Chunked 2 ∧
        ∃ (later : List Grouping.Event) (w' : Grouping), LeadsTo (Grouping.after? 2) w later w' ∧
          (w'.cancelled = false ∧ w'.stage.out.dropped = false ∧ w'.after? 2 .work = none ∧
            w'.after? 2 .receive = none) ∧
          w'.received = [[Record.counter "a" 1, Record.counter "b" 2], [Record.counter "c" 3]] ∧
          later.length ≤ w.toDo ∧ w'.stage.out.receive.1 = .finished ∧
          w'.received.length = Batcher.count 2 w.sent.length := by
  let events : List Grouping.Event :=
    [.work, .send (Record.counter "a" 1), .send (Record.counter "b" 2), .work, .work, .send (Record.counter "c" 3),
      .work, .receive, .work, .close]
  let later : List Grouping.Event := [.work, .work, .receive, .work]
  obtain ⟨w, w', run, run', facts⟩ := LeadsTo.exists_of_any_later (Grouping.after? 2) Grouping.initial events later
    (fun w w' => decide ((w.cancelled = false ∧ w.stage.out.dropped = false) ∧
      (w.stage.task = .filling [Record.counter "c" 3] ∧ w.stage.input.closed = true ∧
        w.received = [[Record.counter "a" 1, Record.counter "b" 2]]) ∧
      (w'.cancelled = false ∧ w'.stage.out.dropped = false ∧ w'.after? 2 .work = none ∧
        w'.after? 2 .receive = none) ∧
      w'.received = [[Record.counter "a" 1, Record.counter "b" 2], [Record.counter "c" 3]]))
    (by decide +kernel)
  obtain ⟨⟨quiet, listens⟩, history, calm, received⟩ := of_decide_eq_true facts
  obtain ⟨chunked, rest⟩ := input_is_chunked 2 (by decide) events w run quiet listens
  obtain ⟨-, bound, ends⟩ := rest history.2.1 later w' run' calm.1 calm.2.1
  obtain ⟨finished, -, count⟩ := ends calm.2.2.1 calm.2.2.2
  exact ⟨events, w, by decide, run, ⟨quiet, listens⟩, history, chunked, later, w', run', calm, received, bound,
    finished, count⟩

end Telemetry.Stage
