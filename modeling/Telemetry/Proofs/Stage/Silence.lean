/-
The stages once the signal has come, each of them on its own, whatever else is done to it. Nothing is read
from an input and nothing is put into an output any more, and the next step of a task is its last one
(`Generating.CutOff`, `Merging.CutOff`, `Grouping.CutOff`). So what can still be received is what the output
held when the signal came, and then the output is at its end.
-/
import Telemetry.Proofs.Stage.Grouping
import Telemetry.Proofs.Stage.Merging
import Telemetry.Proofs.Stage.Signal

namespace Telemetry.Stage

/-! ## Generators -/

namespace Generating

variable {snapshot : Snapshot} {w w' : Generating} {e : Event} {later : List Event}

/-- A generator to which the signal came in the state `w`, in a later state. Its output has got a part of
the snapshot from its beginning. -/
structure CutOff (snapshot : Snapshot) (w w' : Generating) : Prop where
  output : w.outlet.CutOff w'.outlet
  last : w'.stage.step w'.cancelled = if w'.stage.task.ended then none else some w'.stage.finish
  ends : w'.stage.task.ended = true → w'.stage.out.items = [] → w'.stage.out.receive.1 = .finished
  begins : w'.passed <+: snapshot

theorem still_of_after (signal : w.cancelled = true) (step : w.after? e = some w') :
    w'.cancelled = true ∧ w'.passed = w.passed ∧ (w'.stage.out.dropped = false → w.stage.out.dropped = false) := by
  cases e with
  | signal =>
    cases step
    exact ⟨rfl, rfl, id⟩
  | work =>
    obtain ⟨stage, moves, rfl⟩ := Option.map_eq_some_iff.1 step
    rw [signal] at moves
    obtain ⟨-, rfl⟩ := Source.finish_of_step moves
    exact ⟨signal, List.append_right_eq_self.2 (Channel.added_close _), id⟩
  | receive =>
    simp only [after?] at step
    split at step
    · rename_i r out got
      obtain ⟨rest, items, rfl⟩ := Channel.items_of_receive got
      cases step
      exact ⟨signal, rfl, id⟩
    · cases step
  | leave =>
    cases step
    exact ⟨signal, rfl, fun listens => Bool.noConfusion listens⟩

theorem Sound.cutOff (h : w.Sound snapshot) (run : LeadsTo after? w (.signal :: later) w') :
    w.CutOff snapshot w' := by
  have sound : w'.Sound snapshot := run.keeps (Sound snapshot) (fun _ _ _ sound step => sound.after step) h
  obtain ⟨v, signal, run⟩ := LeadsTo.cons_iff.1 run
  cases signal
  obtain ⟨signal, passed, listens⟩ := run.stays (fun v => v.cancelled = true)
    (fun v => v.stage.out.dropped = false) passed (fun _ _ _ signal step => still_of_after signal step) rfl
  constructor
  · exact h.outlet.cutOff sound.outlet passed listens
  · rw [signal, Source.step_cancelled]
  · exact fun ended items => Channel.receive_of_empty items (sound.account.closed.trans ended)
  · exact sound.account.isPrefix

end Generating

/-! ## Fan-ins -/

namespace Merging

variable {inputs : List (Option Snapshot)} {w w' : Merging} {e : Event} {events later : List Event}

/-- The generator at input `i`, whose receiver is the forwarder. -/
def generator (w : Merging) (i : Nat) : Generating where
  stage := (w.stage.lanes[i]?.map (·.source)).getD Source.byHand
  cancelled := w.cancelled
  passed := ofInput i w.sent
  received := ofInput i w.taken

/-- A fan-in to which the signal came in the state `w`, in a later state. Of each input, the output has got
a part of what was sent on it, from its beginning. -/
structure CutOff (inputs : List (Option Snapshot)) (w w' : Merging) : Prop where
  generators : ∀ (i : Nat) (s : Snapshot), inputs[i]? = some (some s) → (w.generator i).CutOff s (w'.generator i)
  output : w.outlet.CutOff w'.outlet
  history : w'.taken = w.taken ∧ w'.merged = w.merged
  last : ∀ l ∈ w'.stage.lanes, l.step w'.cancelled w'.stage.out =
    if l.forwarder = .ended then none else some (l.finish, w'.stage.out)
  ends : (∀ l ∈ w'.stage.lanes, l.forwarder = .ended) → w'.stage.out.items = [] →
    w'.stage.out.receive.1 = .finished
  begins : ∀ i < inputs.length, ofInput i w'.merged <+: ofInput i w'.sent

/-! ### The generators at the inputs -/

theorem generator_eq {i : Nat} {l : Lane} (found : w.stage.lanes[i]? = some l) :
    w.generator i = ⟨l.source, w.cancelled, ofInput i w.sent, ofInput i w.taken⟩ := by
  simp [generator, found]

theorem generator_congr {i : Nat} (lane : w'.stage.lanes[i]? = w.stage.lanes[i]?)
    (cancelled : w'.cancelled = w.cancelled) (sent : ofInput i w'.sent = ofInput i w.sent)
    (taken : ofInput i w'.taken = ofInput i w.taken) : w.generator i = w'.generator i := by
  simp [generator, lane, cancelled, sent, taken]

/-- What a forwarder does to its input is what a receiver can do. -/
theorem generator_of_forward (h : w.Sound inputs) {i : Nat} {l l' : Lane} {out : Channel Record}
    (found : w.stage.lanes[i]? = some l) (move : l.Move w.cancelled w.stage.out l' out) :
    ∃ seen, LeadsTo Generating.after? ⟨l.source, w.cancelled, ofInput i w.sent, ofInput i w.taken⟩ seen
      ⟨l'.source, w.cancelled, ofInput i w.sent, ofInput i w.taken ++ l.source.out.taken l'.source.out⟩ := by
  have hears : l.source.out.dropped = false := by
    rw [← Bool.not_eq_true, (h.lanes i l found).dropped]
    exact move.runs
  cases move with
  | finish live why =>
    refine ⟨[.leave], LeadsTo.single (congrArg some ?_)⟩
    rw [show l.source.out.taken l.finish.source.out = [] from Channel.taken_drop _, List.append_nil]
    rfl
  | @receive r rest waits items =>
    refine ⟨[.receive], LeadsTo.single ?_⟩
    rw [Channel.taken_rest items hears]
    simp [Generating.after?, Channel.receive, items]
  | send holds listens =>
    refine ⟨[], LeadsTo.nil_iff.2 ?_⟩
    rw [Channel.taken_of_same rfl, List.append_nil]

/-- What happens to a fan-in is something that can happen to the generator at an input. -/
theorem generator_of_after (h : w.Sound inputs) {i : Nat} {s : Snapshot} (generated : inputs[i]? = some (some s))
    (step : w.after? e = some w') : ∃ seen, LeadsTo Generating.after? (w.generator i) seen (w'.generator i) := by
  cases change_of_after step with
  | signal => exact ⟨[.signal], LeadsTo.single rfl⟩
  | @feed j l source found fed =>
    by_cases other : j = i
    · subst other
      obtain ⟨bound, -⟩ := List.getElem?_eq_some_iff.1 found
      -- the input of a generator is open only while its task runs, so nobody feeds it by hand
      have closed := (h.sources j l s found generated).closed
      rw [generator_eq found, generator_eq (List.getElem?_set_self bound), ofInput_append_self]
      cases fed with
      | send byHand isOpen listens => exact absurd (closed.symm.trans isOpen) (by simp [byHand])
      | close byHand isOpen => exact absurd (closed.symm.trans isOpen) (by simp [byHand])
      | step moves => exact ⟨[.work], LeadsTo.single (by simp [Generating.after?, moves])⟩
    · exact ⟨[], LeadsTo.nil_iff.2 (generator_congr (List.getElem?_set_ne other) rfl (ofInput_append_other other) rfl)⟩
  | @forward j l l' out found moves =>
    by_cases other : j = i
    · subst other
      obtain ⟨bound, -⟩ := List.getElem?_eq_some_iff.1 found
      rw [generator_eq found, generator_eq (List.getElem?_set_self bound), ofInput_append_self]
      exact generator_of_forward h found (Lane.move_of_step moves)
    · exact ⟨[], LeadsTo.nil_iff.2 (generator_congr (List.getElem?_set_ne other) rfl rfl (ofInput_append_other other))⟩
  | receive items => exact ⟨[], LeadsTo.nil_iff.2 rfl⟩
  | leave => exact ⟨[], LeadsTo.nil_iff.2 rfl⟩

theorem generator_of_leadsTo (h : w.Sound inputs) {i : Nat} {s : Snapshot} (generated : inputs[i]? = some (some s))
    (run : LeadsTo after? w events w') : ∃ seen, LeadsTo Generating.after? (w.generator i) seen (w'.generator i) :=
  run.maps (generator · i) (Sound inputs)
    (fun _ _ _ sound step => ⟨sound.change (change_of_after step), generator_of_after sound generated step⟩) h

theorem generator_ofInputs {i : Nat} {s : Snapshot} (generated : inputs[i]? = some (some s)) :
    (ofInputs inputs).generator i = Generating.ofSnapshot s := by
  simp [generator, ofInputs, FanIn.ofSources, generated, Source.ofInput, ofInput, Generating.ofSnapshot]

/-! ### The fan-in itself -/

theorem Change.still (h : w.Change w') (signal : w.cancelled = true) :
    w'.cancelled = true ∧ (w'.taken, w'.merged) = (w.taken, w.merged) ∧
      (w'.stage.out.dropped = false → w.stage.out.dropped = false) := by
  cases h with
  | signal => exact ⟨rfl, rfl, id⟩
  | feed found fed => exact ⟨signal, rfl, id⟩
  | @forward i l l' out found step =>
    rw [signal, Lane.step_cancelled] at step
    split at step
    · cases step
    · cases step
      refine ⟨signal, Prod.ext ?_ ?_, ?_⟩
      · show w.taken ++ tagged i (l.source.out.taken l.source.out.drop) = w.taken
        rw [Channel.taken_drop]
        exact List.append_nil _
      · show w.merged ++ tagged i (w.stage.out.added w.stage.out) = w.merged
        rw [Channel.added_self]
        exact List.append_nil _
      · show (if _ then w.stage.out.close else w.stage.out : Channel Record).dropped = false → _
        split <;> exact id
  | receive items => exact ⟨signal, rfl, id⟩
  | leave => exact ⟨signal, rfl, fun listens => Bool.noConfusion listens⟩

theorem cutOff_of_leadsTo (run : LeadsTo after? (ofInputs inputs) events w)
    (goesOn : LeadsTo after? w (.signal :: later) w') : w.CutOff inputs w' := by
  have before := sound_of_leadsTo run
  have after := sound_of_leadsTo (run.trans goesOn)
  obtain ⟨v, signal, goesOn⟩ := LeadsTo.cons_iff.1 goesOn
  have sound := before.change (change_of_after signal)
  cases signal
  obtain ⟨signal, history, listens⟩ := goesOn.stays (fun v => v.cancelled = true)
    (fun v => v.stage.out.dropped = false) (fun v => (v.taken, v.merged))
    (fun _ _ _ signal step => (change_of_after step).still signal) rfl
  have history : w'.taken = w.taken ∧ w'.merged = w.merged := Prod.mk.inj history
  constructor
  · intro i s generated
    obtain ⟨seen, start⟩ := generator_of_leadsTo (sound_ofInputs inputs) generated run
    rw [generator_ofInputs generated] at start
    obtain ⟨rest, goesOn⟩ := generator_of_leadsTo sound generated goesOn
    have signal : (w.generator i).after? .signal = some (generator { w with cancelled := true } i) := rfl
    exact (Generating.sound_of_leadsTo start).cutOff (LeadsTo.cons_iff.2 ⟨_, signal, goesOn⟩)
  · exact before.outlet.cutOff after.outlet (congrArg (List.map Prod.snd) history.2) listens
  · exact history
  · intro l mem
    rw [signal, Lane.step_cancelled]
  · intro ended items
    exact Channel.receive_of_empty items (after.closed.trans (FanIn.isOver_iff.2 ended))
  · intro i bound
    rw [← after.length] at bound
    have account := after.lanes i _ (List.getElem?_eq_getElem bound)
    -- a forwarder that was stopped may have thrown something away, but only behind what it had forwarded
    by_cases live : w'.stage.lanes[i].forwarder = .ended
    · obtain ⟨-, forwarded, read⟩ := account.ended live
      exact forwarded.trans read
    · obtain ⟨held, queued⟩ := account.live live
      exact ⟨_, by rw [← queued, ← held, List.append_assoc]⟩

end Merging

/-! ## Batchers -/

namespace Grouping

variable {size : Nat} {w w' : Grouping} {e : Event} {events later : List Event}

/-- A batcher to which the signal came in the state `w`, in a later state. Its output has got the first of
the batches into which its input is cut, and a smaller one only if all of the input had been taken
before. -/
structure CutOff (size : Nat) (w w' : Grouping) : Prop where
  output : w.outlet.CutOff w'.outlet
  taken : w'.taken = w.taken
  last : w'.stage.step w'.cancelled size = if w'.stage.task = .ended then none else some w'.stage.finish
  ends : w'.stage.task = .ended → w'.stage.out.items = [] → w'.stage.out.receive.1 = .finished
  begins : w'.passed <+: Batcher.chunks size w'.sent
  short : ∀ b ∈ w'.passed, b.length < Batcher.effective size →
    w.stage.input.closed = true ∧ w.stage.input.items = [] ∧ w.taken = w.sent

theorem Change.still (h : w.Change size w') (signal : w.cancelled = true) :
    w'.cancelled = true ∧ (w'.taken, w'.passed) = (w.taken, w.passed) ∧
      (w'.stage.out.dropped = false → w.stage.out.dropped = false) := by
  have listens := h.quiet.2
  cases h with
  | signal => exact ⟨rfl, rfl, listens⟩
  | send isOpen hears | close isOpen | receive items | leave => exact ⟨signal, rfl, listens⟩
  | work step =>
    rw [signal, Batching.step_cancelled] at step
    split at step <;> cases step
    exact ⟨signal, Prod.ext (List.append_right_eq_self.2 (Channel.taken_drop _))
      (List.append_right_eq_self.2 (Channel.added_close _)), listens⟩

/-- A smaller batch was sent when all of the input had been taken. -/
theorem Sound.drained (h : w.Sound size) {b : Batch} (mem : b ∈ w.passed)
    (few : b.length < Batcher.effective size) :
    w.stage.input.closed = true ∧ w.stage.input.items = [] ∧ w.taken = w.sent := by
  obtain ⟨full, short, cut, all⟩ := h.cuts.cut
  -- only the last batch of a cut can be smaller, and it is cut off when the input is at its end
  have last := cut.eq_short_of_mem (List.mem_append_left _ mem) few
  obtain ⟨closed, sent⟩ := all (by simp [last])
  exact ⟨closed, h.account.all_taken sent⟩

/-- The batches that were sent are the first ones into which the input is cut. -/
theorem Sound.begins (h : w.Sound size) : w.passed <+: Batcher.chunks size w.sent := by
  obtain ⟨full, short, cut, all⟩ := h.cuts.cut
  have begins : w.passed.flatten <+: w.sent := h.account.begins.1.trans h.account.begins.2
  cases offer : w.stage.task.offer? with
  | none =>
    rw [offer, Option.toList_none, List.append_nil] at cut all
    exact cut.prefix_chunks begins fun remains => (all remains).2
  | some b =>
    rw [offer] at cut
    -- without the batch that is offered all others are full
    obtain ⟨full', before⟩ := cut.init
    exact before.prefix_chunks begins fun remains => absurd rfl remains

theorem Sound.cutOff (h : w.Sound size) (run : LeadsTo (after? size) w (.signal :: later) w') :
    w.CutOff size w' := by
  have sound : w'.Sound size := run.keeps (Sound size) (fun _ _ _ sound step => sound.change (change_of_after step)) h
  obtain ⟨v, signal, run⟩ := LeadsTo.cons_iff.1 run
  cases signal
  obtain ⟨signal, history, listens⟩ := run.stays (fun v => v.cancelled = true)
    (fun v => v.stage.out.dropped = false) (fun v => (v.taken, v.passed))
    (fun _ _ _ signal step => (change_of_after step).still signal) rfl
  have history : w'.taken = w.taken ∧ w'.passed = w.passed := Prod.mk.inj history
  constructor
  · exact h.outlet.cutOff sound.outlet history.2 listens
  · exact history.1
  · rw [signal, Batching.step_cancelled]
  · exact fun ended items => Channel.receive_of_empty items (sound.account.closed.2 ended)
  · exact sound.begins
  · exact fun b mem few => h.drained (history.2 ▸ mem) few

end Grouping

end Telemetry.Stage
