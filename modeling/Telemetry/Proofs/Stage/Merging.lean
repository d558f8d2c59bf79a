/-
A fan-in on its own. Its inputs are fed by hand or by generators, in any order with the steps of its
forwarders and of whoever receives from it, and the signal may come and the receiver may go at any time
(`Merging`). Of each input, what was forwarded, what the forwarder holds and what waits in the input are
what was sent on it, in its order; a forwarder that has ended has left nothing behind, unless it was
stopped (`Lane.Account`). Every event keeps these accounts (`Merging.Sound.change`).
-/
import Telemetry.Proofs.Stage.Generating
import Telemetry.Proofs.Stage.Linked

namespace Telemetry.Stage

/-! ## What can happen to a fan-in -/

/-- An input without a task that feeds it. -/
def Source.byHand : Source where
  snapshot := []
  task := { rest := [], ended := true }

/-- An input with the generator of a snapshot, or without one. -/
def Source.ofInput : Option Snapshot → Source
  | none => byHand
  | some s => ofSnapshot s

namespace FanIn

/-- Input `i`. -/
def input (f : FanIn) (i : Nat) : Channel Record := (f.lanes[i]?.map (·.source.out)).getD {}

/-- Changes input `i` by hand; none when a generator feeds it, and when its sender was given up. -/
def change? (change : Channel Record → Channel Record) (i : Nat) (f : FanIn) : Option FanIn := do
  let lane ← f.lanes[i]?
  if lane.source.task.ended && !lane.source.out.closed then
    let source := { lane.source with out := change lane.source.out }
    some { f with lanes := f.lanes.set i { lane with source } }
  else none

variable {f f' : FanIn} {i : Nat} {l l' : Lane}

theorem input_eq (found : f.lanes[i]? = some l) : f.input i = l.source.out := by
  simp [input, found]

theorem input_set (found : f.lanes[i]? = some l) (out : Channel Record) :
    ({ lanes := f.lanes.set i l', out } : FanIn).input i = l'.source.out := by
  obtain ⟨bound, -⟩ := List.getElem?_eq_some_iff.1 found
  simp [input, bound]

theorem lane_of_change? {change : Channel Record → Channel Record} (h : f.change? change i = some f') :
    ∃ l, f.lanes[i]? = some l ∧ l.source.task.ended = true ∧ l.source.out.closed = false ∧ f' = { f with
      lanes := f.lanes.set i { l with source := { l.source with out := change l.source.out } } } := by
  obtain ⟨l, found, h⟩ := Option.bind_eq_some_iff.1 h
  split at h
  · rename_i byHand
    cases h
    obtain ⟨ended, isOpen⟩ := Bool.and_eq_true_iff.1 byHand
    exact ⟨l, found, ended, by simpa using isOpen, rfl⟩
  · cases h

end FanIn

/-- A fan-in with its history: what was sent on its inputs, what its forwarders have taken and put into
the output, and what was received. -/
structure Merging where
  stage : FanIn
  cancelled : Bool := false
  sent : List (Nat × Record) := []
  taken : List (Nat × Record) := []
  merged : List (Nat × Record) := []
  received : List Record := []
deriving DecidableEq, Repr

namespace Merging

/-- What happens to a fan-in: the signal is set off, a record is sent by hand, an input is closed by hand,
a generator or a forwarder takes a step, a record is received, or the receiver goes. -/
inductive Event where
  | signal
  | send (i : Nat) (r : Record)
  | close (i : Nat)
  | feed (i : Nat)
  | forward (i : Nat)
  | receive
  | leave
deriving DecidableEq, Repr

/-- A fan-in of some inputs, of which nothing has been done yet. -/
def ofInputs (inputs : List (Option Snapshot)) : Merging where
  stage := FanIn.ofSources (inputs.map Source.ofInput)

/-- The fan-in when input `i` has been fed. -/
def fed (w : Merging) (i : Nat) (stage : FanIn) : Merging :=
  { w with stage, sent := w.sent ++ tagged i ((w.stage.input i).added (stage.input i)) }

/-- The fan-in when forwarder `i` has taken a step. -/
def forwarded (w : Merging) (i : Nat) (stage : FanIn) : Merging :=
  { w with
    stage
    taken := w.taken ++ tagged i ((w.stage.input i).taken (stage.input i))
    merged := w.merged ++ tagged i (w.stage.out.added stage.out) }

/-- The fan-in after an event; none when it cannot happen. -/
def after? (w : Merging) : Event → Option Merging
  | .signal => some { w with cancelled := true }
  | .send i r =>
    if (w.stage.input i).dropped then none else (w.stage.change? (·.push r) i).map (w.fed i)
  | .close i => (w.stage.change? Channel.close i).map (w.fed i)
  | .feed i => (w.stage.feed w.cancelled i).map (w.fed i)
  | .forward i => (w.stage.forward w.cancelled i).map (w.forwarded i)
  | .receive => match w.stage.out.receive with
    | (.item r, out) => some { w with stage := { w.stage with out }, received := w.received ++ [r] }
    | _ => none
  | .leave => some { w with stage := { w.stage with out := w.stage.out.drop } }

/-- The output with its history. -/
def outlet (w : Merging) : Outlet Record := ⟨w.stage.out, w.merged.map (·.2), w.received⟩

/-! ## What an event changes -/

end Merging

/-- What becomes of an input: a record is sent by hand, the sender is given up by hand, or its generator
takes a step. -/
inductive Source.Fed (cancelled : Bool) (s : Source) : Source → Prop
  | send {r : Record} (byHand : s.task.ended = true) (isOpen : s.out.closed = false)
      (listens : s.out.dropped = false) : Fed cancelled s { s with out := s.out.push r }
  | close (byHand : s.task.ended = true) (isOpen : s.out.closed = false) : Fed cancelled s { s with out := s.out.close }
  | step {t : Source} (moves : s.step cancelled = some t) : Fed cancelled s t

/-- What an event does to a fan-in. -/
inductive Merging.Change (w : Merging) : Merging → Prop
  | signal : Change w { w with cancelled := true }
  | feed {i : Nat} {l : Lane} {source : Source} (found : w.stage.lanes[i]? = some l)
      (fed : l.source.Fed w.cancelled source) :
      Change w { w with
        stage := { w.stage with lanes := w.stage.lanes.set i { l with source } }
        sent := w.sent ++ tagged i (l.source.out.added source.out) }
  | forward {i : Nat} {l l' : Lane} {out : Channel Record} (found : w.stage.lanes[i]? = some l)
      (step : l.step w.cancelled w.stage.out = some (l', out)) :
      Change w { w with
        stage := { lanes := w.stage.lanes.set i l'
                   out := if FanIn.isOver (w.stage.lanes.set i l') then out.close else out }
        taken := w.taken ++ tagged i (l.source.out.taken l'.source.out)
        merged := w.merged ++ tagged i (w.stage.out.added out) }
  | receive {r : Record} {rest : List Record} (items : w.stage.out.items = r :: rest) :
      Change w { w with
        stage := { w.stage with out := { w.stage.out with items := rest } }
        received := w.received ++ [r] }
  | leave : Change w { w with stage := { w.stage with out := w.stage.out.drop } }

namespace Merging

variable {w w' : Merging}

theorem fed_eq {i : Nat} {l : Lane} {source : Source} (found : w.stage.lanes[i]? = some l) :
    w.fed i { w.stage with lanes := w.stage.lanes.set i { l with source } } = { w with
      stage := { w.stage with lanes := w.stage.lanes.set i { l with source } }
      sent := w.sent ++ tagged i (l.source.out.added source.out) } := by
  unfold fed
  rw [FanIn.input_eq found, FanIn.input_set found]

/-- Every event is one of the changes. -/
theorem change_of_after {e : Event} (h : w.after? e = some w') : w.Change w' := by
  cases e with
  | signal =>
    cases h
    exact .signal
  | send i r =>
    simp only [after?] at h
    split at h
    · cases h
    · rename_i listens
      obtain ⟨stage, changed, rfl⟩ := Option.map_eq_some_iff.1 h
      obtain ⟨l, found, byHand, isOpen, rfl⟩ := FanIn.lane_of_change? changed
      -- the event speaks of input `i`, the change of the lane at that place
      rw [FanIn.input_eq found, Bool.not_eq_true] at listens
      rw [fed_eq found]
      exact .feed found (.send byHand isOpen listens)
  | close i =>
    obtain ⟨stage, changed, rfl⟩ := Option.map_eq_some_iff.1 h
    obtain ⟨l, found, byHand, isOpen, rfl⟩ := FanIn.lane_of_change? changed
    rw [fed_eq found]
    exact .feed found (.close byHand isOpen)
  | feed i =>
    obtain ⟨stage, fed, rfl⟩ := Option.map_eq_some_iff.1 h
    obtain ⟨l, found, fed⟩ := Option.bind_eq_some_iff.1 fed
    obtain ⟨source, step, same⟩ := Option.bind_eq_some_iff.1 fed
    cases same
    rw [fed_eq found]
    exact .feed found (.step step)
  | forward i =>
    obtain ⟨stage, forwarded, rfl⟩ := Option.map_eq_some_iff.1 h
    obtain ⟨l, found, forwarded⟩ := Option.bind_eq_some_iff.1 forwarded
    obtain ⟨⟨l', out⟩, step, same⟩ := Option.bind_eq_some_iff.1 forwarded
    cases same
    -- the last forwarder closes the output, which adds nothing to it
    have added : w.stage.out.added (if FanIn.isOver (w.stage.lanes.set i l') then out.close else out) =
        w.stage.out.added out := by
      split <;> rfl
    unfold Merging.forwarded
    rw [FanIn.input_eq found, FanIn.input_set found, added]
    exact .forward found step
  | receive =>
    simp only [after?] at h
    split at h
    · rename_i r out got
      obtain ⟨rest, items, rfl⟩ := Channel.items_of_receive got
      cases h
      exact .receive items
    · cases h
  | leave =>
    cases h
    exact .leave

end Merging

/-! ## What is known of an input -/

/-- What was sent on an input is forwarded, in the hand of its forwarder, or still there. A forwarder
that has ended on its own (`regular`) has forwarded everything. -/
structure Lane.Account (regular : Prop) (l : Lane) (sent taken merged : List Record) : Prop where
  live : l.forwarder ≠ .ended →
    merged ++ l.forwarder.hand?.toList = taken ∧ taken ++ l.source.out.items = sent
  ended : l.forwarder = .ended → l.source.out.items = [] ∧ merged <+: taken ∧ taken <+: sent
  dropped : l.source.out.dropped = true ↔ l.forwarder = .ended
  done : regular → l.forwarder = .ended → l.source.out.closed = true ∧ merged = sent

/-- Feeding an input adds to it, but not once its receiver has gone, and it never opens it again. -/
theorem Source.Fed.keeps {cancelled : Bool} {s t : Source} (h : s.Fed cancelled t) :
    t.out.items = s.out.items ++ s.out.added t.out ∧ t.out.dropped = s.out.dropped ∧
      (s.out.closed = true → t.out.closed = true) ∧ (s.out.dropped = true → s.out.added t.out = []) := by
  have still : ∀ {u : Source}, u.out.items = s.out.items → u.out.items = s.out.items ++ s.out.added u.out ∧
      (s.out.dropped = true → s.out.added u.out = []) := by
    intro u same
    rw [Channel.added_of_same same, List.append_nil]
    exact ⟨same, fun _ => rfl⟩
  have push : ∀ r : Record, s.out.dropped = false →
      (s.out.push r).items = s.out.items ++ s.out.added (s.out.push r) ∧
        (s.out.dropped = true → s.out.added (s.out.push r) = []) := by
    intro r listens
    rw [Channel.added_push]
    exact ⟨rfl, fun gone => by rw [listens] at gone; cases gone⟩
  cases h with
  | @send r byHand isOpen listens => exact ⟨(push r listens).1, rfl, id, (push r listens).2⟩
  | close byHand isOpen => exact ⟨(still rfl).1, rfl, fun _ => rfl, (still rfl).2⟩
  | step moves =>
    cases Source.move_of_step moves with
    | finish live why => exact ⟨(still rfl).1, rfl, fun _ => rfl, (still rfl).2⟩
    | take live hand next => exact ⟨(still rfl).1, rfl, id, (still rfl).2⟩
    | @send r live hand listens => exact ⟨(push r listens).1, rfl, id, (push r listens).2⟩

/-- A generator that feeds an input is not helped by hand. -/
theorem Source.Account.fed {cancelled : Bool} {snapshot : Snapshot} {s t : Source} {sent : List Record}
    (h : s.Account snapshot sent) (fed : s.Fed cancelled t) : t.Account snapshot (sent ++ s.out.added t.out) := by
  cases fed with
  | send byHand isOpen listens =>
    rw [h.closed, byHand] at isOpen
    cases isOpen
  | close byHand isOpen =>
    rw [h.closed, byHand] at isOpen
    cases isOpen
  | step moves => exact h.move (Source.move_of_step moves)

namespace Lane

variable {regular still : Prop} {l l' : Lane} {sent taken merged : List Record} {cancelled : Bool}

theorem Account.mono (h : l.Account regular sent taken merged) (weaker : still → regular) :
    l.Account still sent taken merged :=
  ⟨h.live, h.ended, h.dropped, fun now => h.done (weaker now)⟩

theorem account_ofInput (regular : Prop) (input : Option Snapshot) :
    ({ source := Source.ofInput input } : Lane).Account regular [] [] [] := by
  cases input <;> exact ⟨fun _ => ⟨rfl, rfl⟩, nofun, by simp [Source.ofInput, Source.byHand, Source.ofSnapshot], nofun⟩

theorem Account.fed (h : l.Account regular sent taken merged) {source : Source}
    (fed : l.source.Fed cancelled source) :
    ({ l with source } : Lane).Account regular (sent ++ l.source.out.added source.out) taken merged := by
  obtain ⟨items, dropped, closed, nothing⟩ := fed.keeps
  -- a forwarder that has ended has taken the receiver with it, so nobody can send to it any more
  have lost : l.forwarder = .ended → l.source.out.added source.out = [] := fun ended =>
    nothing (h.dropped.2 ended)
  constructor
  · intro live
    obtain ⟨held, queued⟩ := h.live live
    refine ⟨held, ?_⟩
    show taken ++ source.out.items = _
    rw [items, ← List.append_assoc, queued]
  · intro ended
    obtain ⟨empty, forwarded, read⟩ := h.ended ended
    refine ⟨?_, forwarded, read.trans (List.prefix_append _ _)⟩
    show source.out.items = []
    rw [items, empty, lost ended, List.append_nil]
  · show source.out.dropped = true ↔ _
    rw [dropped]
    exact h.dropped
  · intro calm ended
    obtain ⟨inputClosed, all⟩ := h.done calm ended
    exact ⟨closed inputClosed, by rw [lost ended, List.append_nil]; exact all⟩

theorem Account.forward (h : l.Account regular sent taken merged) {out out' : Channel Record}
    (m : l.Move cancelled out l' out') (calm : regular → cancelled = false ∧ out.dropped = false) :
    l'.Account regular sent (taken ++ l.source.out.taken l'.source.out) (merged ++ out.added out') := by
  obtain ⟨held, queued⟩ := h.live m.runs
  cases m with
  | finish live why =>
    -- whatever the reason, the forwarder gives its input up as it is
    show l.finish.Account regular sent (taken ++ l.source.out.taken l.source.out.drop) (merged ++ out.added out)
    rw [Channel.taken_drop, Channel.added_of_same rfl, List.append_nil, List.append_nil]
    refine ⟨fun runs => absurd rfl runs, fun _ => ⟨rfl, ⟨_, held⟩, ⟨_, queued⟩⟩, ⟨fun _ => rfl, fun _ => rfl⟩, ?_⟩
    intro now _
    obtain ⟨quiet, listens⟩ := calm now
    rcases why with ⟨waits, items, closed⟩ | signal | gone
    · have all : merged = taken := by simpa [waits, Forwarder.hand?] using held
      rw [items, List.append_nil] at queued
      exact ⟨closed, all.trans queued⟩
    · rw [quiet] at signal
      cases signal
    · rw [listens] at gone
      cases gone
  | @receive r rest waits items =>
    have listens : l.source.out.dropped = false := by
      rw [← Bool.not_eq_true, h.dropped, waits]
      exact Forwarder.noConfusion
    rw [Channel.added_of_same rfl, List.append_nil, Channel.taken_rest items listens]
    refine ⟨fun _ => ⟨?_, ?_⟩, nofun, ?_, nofun⟩
    · have all : merged = taken := by simpa [waits, Forwarder.hand?] using held
      show merged ++ [r] = taken ++ [r]
      rw [all]
    · rw [items] at queued
      show taken ++ [r] ++ rest = sent
      rw [List.append_assoc]
      exact queued
    · simp [listens]
  | @send r holds listens =>
    have hears := h.dropped
    rw [holds] at hears held
    rw [Channel.added_push, Channel.taken_of_same rfl, List.append_nil]
    refine ⟨fun _ => ⟨?_, queued⟩, nofun, ?_, nofun⟩
    · show merged ++ [r] ++ [] = taken
      rw [List.append_nil]
      exact held
    · show l.source.out.dropped = true ↔ Forwarder.waiting = .ended
      rw [hears]
      simp

/-- A forwarder puts a record into the output only when there is a place and somebody to take it. -/
theorem output_of_step {out out' : Channel Record} (h : l.step cancelled out = some (l', out')) :
    out' = out ∨ ∃ r, out.hasRoom = true ∧ out.dropped = false ∧ out' = out.push r := by
  unfold step at h
  split at h
  · cases h
  · split at h
    · cases h
      exact .inl rfl
    · split at h <;> cases h <;> exact .inl rfl
  · split at h
    · cases h
      exact .inl rfl
    · split at h
      · cases h
        exact .inl rfl
      · rename_i r holds quiet listens
        split at h
        · rename_i room
          cases h
          exact .inr ⟨r, room, by simpa using listens, rfl⟩
        · cases h

end Lane

/-! ## What is known of a fan-in -/

namespace Merging

/-- A fan-in that has lost nothing but what its forwarders threw away when they were stopped. -/
structure Sound (inputs : List (Option Snapshot)) (w : Merging) : Prop where
  length : w.stage.lanes.length = inputs.length
  lanes : ∀ (i : Nat) (l : Lane), w.stage.lanes[i]? = some l →
    l.Account (w.cancelled = false ∧ w.stage.out.dropped = false) (ofInput i w.sent) (ofInput i w.taken)
      (ofInput i w.merged)
  sources : ∀ (i : Nat) (l : Lane) (s : Snapshot), w.stage.lanes[i]? = some l → inputs[i]? = some (some s) →
    l.source.Account s (ofInput i w.sent)
  origins : ∀ x ∈ w.merged, x.1 < inputs.length
  closed : w.stage.out.closed = FanIn.isOver w.stage.lanes
  outlet : w.outlet.Sound

variable {inputs : List (Option Snapshot)} {w w' : Merging} {e : Event} {events : List Event}

theorem sound_ofInputs (inputs : List (Option Snapshot)) : (ofInputs inputs).Sound inputs := by
  have lane : ∀ (i : Nat) (l : Lane), (ofInputs inputs).stage.lanes[i]? = some l →
      ∃ input, inputs[i]? = some input ∧ l = { source := Source.ofInput input } := by
    intro i l found
    simp only [ofInputs, FanIn.ofSources, List.getElem?_map, Option.map_map, Option.map_eq_some_iff] at found
    obtain ⟨input, here, rfl⟩ := found
    exact ⟨input, here, rfl⟩
  constructor
  · simp [ofInputs, FanIn.ofSources]
  · intro i l found
    obtain ⟨input, -, rfl⟩ := lane i l found
    exact Lane.account_ofInput _ input
  · intro i l s found generated
    obtain ⟨input, here, rfl⟩ := lane i l found
    cases here.symm.trans generated
    exact Source.account_ofSnapshot s
  · exact fun x mem => absurd mem List.not_mem_nil
  · cases inputs <;> rfl
  · cases inputs with
    | nil => exact Outlet.sound_empty.of_same rfl rfl
    | cons input inputs => exact Outlet.sound_empty

/-- The accounts of the inputs when one of them changes. -/
theorem Sound.lanes_set (h : w.Sound inputs) {regular : Prop} {i : Nat} {l l' : Lane}
    (weaker : regular → w.cancelled = false ∧ w.stage.out.dropped = false)
    {sent taken merged : List Record}
    (found : w.stage.lanes[i]? = some l)
    (account : l'.Account regular (ofInput i w.sent ++ sent) (ofInput i w.taken ++ taken) (ofInput i w.merged ++ merged)) :
    ∀ (j : Nat) (k : Lane), (w.stage.lanes.set i l')[j]? = some k →
      k.Account regular (ofInput j (w.sent ++ tagged i sent)) (ofInput j (w.taken ++ tagged i taken))
        (ofInput j (w.merged ++ tagged i merged)) := by
  intro j k here
  rcases eq_or_ne i j with rfl | other
  · obtain ⟨bound, -⟩ := List.getElem?_eq_some_iff.1 found
    rw [List.getElem?_set_self bound] at here
    cases here
    simpa only [ofInput_append_self] using account
  · rw [List.getElem?_set_ne other] at here
    simpa only [ofInput_append_other other] using (h.lanes j k here).mono weaker

theorem Sound.feed (h : w.Sound inputs) {i : Nat} {l : Lane} {source : Source}
    (found : w.stage.lanes[i]? = some l) (fed : l.source.Fed w.cancelled source) :
    ({ w with
      stage := { w.stage with lanes := w.stage.lanes.set i { l with source } }
      sent := w.sent ++ tagged i (l.source.out.added source.out) } : Merging).Sound inputs := by
  refine ⟨(List.length_set ..).trans h.length, ?_, ?_, h.origins, ?_, h.outlet⟩
  · have account := (h.lanes i l found).fed fed
    rw [← List.append_nil (ofInput i w.taken), ← List.append_nil (ofInput i w.merged)] at account
    have lanes := h.lanes_set id found account
    simp only [tagged, List.map_nil, List.append_nil] at lanes
    exact lanes
  · intro j k s here generated
    rcases eq_or_ne i j with rfl | other
    · obtain ⟨bound, -⟩ := List.getElem?_eq_some_iff.1 found
      rw [List.getElem?_set_self bound] at here
      cases here
      rw [ofInput_append_self]
      exact (h.sources i l s found generated).fed fed
    · rw [List.getElem?_set_ne other] at here
      rw [ofInput_append_other other]
      exact h.sources j k s here generated
  · have same : FanIn.isOver (w.stage.lanes.set i { l with source }) = FanIn.isOver w.stage.lanes :=
      FanIn.isOver_set found rfl
    exact h.closed.trans same.symm

/-- What becomes of the output when a forwarder takes a step. -/
theorem Sound.output (h : w.Sound inputs) {l l' : Lane} {out : Channel Record}
    (step : l.step w.cancelled w.stage.out = some (l', out)) :
    (⟨out, w.merged.map (·.2) ++ w.stage.out.added out, w.received⟩ : Outlet Record).Sound ∧
      out.closed = w.stage.out.closed ∧ out.dropped = w.stage.out.dropped := by
  rcases Lane.output_of_step step with rfl | ⟨r, room, listens, rfl⟩
  · rw [Channel.added_self, List.append_nil]
    exact ⟨h.outlet, rfl, rfl⟩
  · rw [Channel.added_push]
    exact ⟨h.outlet.push room listens r, rfl, rfl⟩

theorem Sound.forward (h : w.Sound inputs) {i : Nat} {l l' : Lane} {out : Channel Record}
    (found : w.stage.lanes[i]? = some l) (step : l.step w.cancelled w.stage.out = some (l', out)) :
    ({ w with
      stage := { lanes := w.stage.lanes.set i l'
                 out := if FanIn.isOver (w.stage.lanes.set i l') then out.close else out }
      taken := w.taken ++ tagged i (l.source.out.taken l'.source.out)
      merged := w.merged ++ tagged i (w.stage.out.added out) } : Merging).Sound inputs := by
  have move := Lane.move_of_step step
  obtain ⟨outlet, closed, dropped⟩ := h.output step
  obtain ⟨bound, -⟩ := List.getElem?_eq_some_iff.1 found
  have ends : (if FanIn.isOver (w.stage.lanes.set i l') then out.close else out).dropped = out.dropped := by
    split <;> rfl
  refine ⟨(List.length_set ..).trans h.length, ?_, ?_, ?_, ?_, ?_⟩
  · have account := (h.lanes i l found).forward move id
    rw [← List.append_nil (ofInput i w.sent)] at account
    have lanes := h.lanes_set id found account
    simp only [tagged, List.map_nil, List.append_nil] at lanes
    intro j k here
    refine (lanes j k here).mono fun calm => ⟨calm.1, ?_⟩
    rw [← dropped, ← ends]
    exact calm.2
  · intro j k s here generated
    rcases eq_or_ne i j with rfl | other
    · rw [List.getElem?_set_self bound] at here
      cases here
      have account := h.sources i l s found generated
      -- a forwarder touches the queue of its input only, not the generator behind it
      cases move <;> exact ⟨account.live, account.ended, account.closed⟩
    · rw [List.getElem?_set_ne other] at here
      exact h.sources j k s here generated
  · intro x mem
    rcases List.mem_append.1 mem with mem | mem
    · exact h.origins x mem
    · obtain ⟨r, -, rfl⟩ := List.mem_map.1 mem
      exact h.length ▸ bound
  · show (if FanIn.isOver (w.stage.lanes.set i l') then out.close else out : Channel Record).closed = _
    cases allEnded : FanIn.isOver (w.stage.lanes.set i l') with
    | true => rfl
    | false =>
      -- the forwarder that took the step was running, so the fan-in was not over before it either
      have runs := FanIn.isOver_eq_false (List.mem_of_getElem? found) move.runs
      exact closed.trans (h.closed.trans runs)
  · unfold Merging.outlet
    rw [map_snd_append_tagged]
    refine outlet.of_same ?_ ends
    show (if _ then out.close else out : Channel Record).items = out.items
    split <;> rfl

/-- Every change keeps a fan-in sound. -/
theorem Sound.change (h : w.Sound inputs) (change : w.Change w') : w'.Sound inputs := by
  cases change with
  | signal =>
    refine ⟨h.length, fun i l found => ?_, h.sources, h.origins, h.closed, h.outlet⟩
    exact (h.lanes i l found).mono fun calm => absurd calm.1 Bool.noConfusion
  | feed found fed => exact h.feed found fed
  | forward found step => exact h.forward found step
  | receive items => exact ⟨h.length, h.lanes, h.sources, h.origins, h.closed, h.outlet.receive items⟩
  | leave =>
    refine ⟨h.length, fun i l found => ?_, h.sources, h.origins, h.closed, h.outlet.drop⟩
    exact (h.lanes i l found).mono fun calm => absurd calm.2 Bool.noConfusion

theorem sound_of_leadsTo (run : LeadsTo after? (ofInputs inputs) events w) : w.Sound inputs :=
  run.keeps (Sound inputs) (fun _ _ _ sound step => sound.change (change_of_after step)) (sound_ofInputs inputs)

end Merging

end Telemetry.Stage
