/-
The output of a fan-in is made of its inputs: every record of each of them once, and in its order, however
the inputs are fed and the forwarders take their turns, as long as nobody stops the fan-in
(`Merging.Interleaves`). It ends with the last input and not before (`inputs_are_interleaved`).
-/
import Telemetry.Proofs.Stage.Merging

namespace Telemetry.Stage

namespace Merging

variable {w : Merging}

/-- A fan-in whose output is made of its inputs: what was put into the output is received or waits there;
of each input, what was received, what waits in the output, what its forwarder holds and what waits in the
input are what was sent on it; the output ends when all inputs are closed and all was received, and it
does end when nothing is left to be done. -/
structure Interleaves (w : Merging) : Prop where
  output : w.merged.map (·.2) = w.received ++ w.stage.out.items
  origins : ∀ x ∈ w.merged, x.1 < w.stage.lanes.length
  input : ∀ (i : Nat) (l : Lane), w.stage.lanes[i]? = some l →
    ofInput i (w.merged.take w.received.length) ++ (ofInput i (w.merged.drop w.received.length) ++
      (l.forwarder.hand?.toList ++ l.source.out.items)) = ofInput i w.sent
  ends : w.stage.out.receive.1 = .finished → ∀ (i : Nat) (l : Lane), w.stage.lanes[i]? = some l →
    l.source.out.closed = true ∧ ofInput i (w.merged.take w.received.length) = ofInput i w.sent
  finishes : (∀ l ∈ w.stage.lanes, l.source.out.closed = true) → w.stage.out.items = [] →
    (∀ i, w.after? (.forward i) = none) → w.stage.out.receive.1 = .finished

/-- The records of an input that were put into the output are received or wait there. -/
theorem ofInput_take_drop (i n : Nat) (log : List (Nat × Record)) :
    ofInput i (log.take n) ++ ofInput i (log.drop n) = ofInput i log := by
  unfold ofInput
  rw [← List.map_append, ← List.filter_append, List.take_append_drop]

/-- A forwarder that cannot go on although its input is closed and the output has a place has ended. -/
theorem ended_of_stuck {i : Nat} {l : Lane} (quiet : w.cancelled = false) (found : w.stage.lanes[i]? = some l)
    (closed : l.source.out.closed = true) (room : w.stage.out.Accepts)
    (stuck : w.after? (.forward i) = none) : l.forwarder = .ended := by
  have still : l.step false w.stage.out = none := by
    cases step : l.step false w.stage.out with
    | none => rfl
    | some next => simp [after?, FanIn.forward, found, quiet, step] at stuck
  cases forwarder : l.forwarder with
  | ended => rfl
  | holding r =>
    unfold Lane.step at still
    rcases room with room | room <;> simp [forwarder, room] at still
    split at still <;> cases still
  | waiting =>
    simp only [Lane.step, forwarder, Bool.false_eq_true, if_false] at still
    split at still
    · cases still
    · cases still
    · rename_i nothing
      rw [(Channel.nothing_of_receive nothing).2] at closed
      cases closed

end Merging

/-- However records are sent on the inputs of a fan-in, inputs are closed, forwarders take steps and the
output is received from, while the signal does not come and the receiver stays, the output is made of the
inputs: every record of each of them once, and in its order. The output ends when every input has been
closed and all its records have been received, and not before. -/
theorem inputs_are_interleaved (inputs : List (Option Snapshot)) (events : List Merging.Event) (w : Merging)
    (run : LeadsTo Merging.after? (Merging.ofInputs inputs) events w) (quiet : w.cancelled = false)
    (listens : w.stage.out.dropped = false) :
    w.stage.lanes.length = inputs.length ∧ w.Interleaves := by
  have sound := Merging.sound_of_leadsTo run
  have calm : w.cancelled = false ∧ w.stage.out.dropped = false := ⟨quiet, listens⟩
  have output : w.received ++ w.stage.out.items = w.merged.map (·.2) := sound.outlet.kept listens
  refine ⟨sound.length, output.symm, ?_, ?_, ?_, ?_⟩
  · rw [sound.length]
    exact sound.origins
  · intro i l found
    rw [← List.append_assoc, Merging.ofInput_take_drop]
    have account := sound.lanes i l found
    -- a forwarder that has ended has nothing in its hand, and what was sent has gone through it
    by_cases live : l.forwarder = .ended
    · rw [live, (account.ended live).1, ← (account.done calm live).2]
      exact List.append_nil _
    · obtain ⟨held, queued⟩ := account.live live
      rw [← List.append_assoc, held, queued]
  · intro finished i l found
    obtain ⟨items, closed⟩ := Channel.finished_of_receive (Prod.ext finished rfl)
    rw [sound.closed] at closed
    have ended := FanIn.isOver_iff.1 closed l (List.mem_of_getElem? found)
    obtain ⟨inputClosed, all⟩ := (sound.lanes i l found).done calm ended
    refine ⟨inputClosed, ?_⟩
    -- the output is empty, so everything that was put into it has been received
    have whole : w.received.length = w.merged.length := by
      rw [items, List.append_nil] at output
      rw [output, List.length_map]
    rw [whole, List.take_length, all]
  · intro closed items stuck
    refine Channel.receive_of_empty items (sound.closed.trans (FanIn.isOver_iff.2 fun l mem => ?_))
    obtain ⟨i, found⟩ := List.mem_iff_getElem?.1 mem
    exact Merging.ended_of_stuck quiet found (closed l mem) (.inl (Channel.hasRoom_of_empty items)) (stuck i)

/-- An input that is fed by hand and one that a generator feeds, whose record comes out first although it
was sent last. The output ends when both inputs are closed and both records have been received. -/
theorem inputs_are_interleaved_two :
    ∃ (events : List Merging.Event) (w : Merging),
      LeadsTo Merging.after? (Merging.ofInputs [none, some [Record.counter "b" 2]]) events w ∧
        (w.cancelled = false ∧ w.stage.out.dropped = false) ∧
        (w.sent = [(0, Record.counter "a" 1), (1, Record.counter "b" 2)] ∧
          w.received = [Record.counter "b" 2, Record.counter "a" 1] ∧ w.stage.out.receive.1 = .finished) ∧
        w.stage.lanes.length = 2 ∧ w.Interleaves := by
  let events : List Merging.Event :=
    [.send 0 (Record.counter "a" 1), .feed 1, .feed 1, .forward 1, .forward 0, .forward 1, .receive, .close 0,
      .forward 0, .feed 1, .forward 1, .receive, .forward 0]
  obtain ⟨w, run, facts⟩ := LeadsTo.exists_of_any
    Merging.after? (Merging.ofInputs [none, some [Record.counter "b" 2]]) events
    (fun w => decide ((w.cancelled = false ∧ w.stage.out.dropped = false) ∧
      w.sent = [(0, Record.counter "a" 1), (1, Record.counter "b" 2)] ∧
      w.received = [Record.counter "b" 2, Record.counter "a" 1] ∧ w.stage.out.receive.1 = .finished))
    (by decide +kernel)
  obtain ⟨⟨quiet, listens⟩, history⟩ := of_decide_eq_true facts
  exact ⟨events, w, run, ⟨quiet, listens⟩, history, inputs_are_interleaved _ _ w run quiet listens⟩

end Telemetry.Stage
