/-
How far a stage reads ahead of whoever receives from it: by what its output holds and by what its tasks
have in their hands, however the tasks take their turns, whether the signal comes or the receiver goes
(`Drawing.Sound`, `Merging.Held`, `Grouping.Held`). A stage that nobody receives from goes on until it has
read as far ahead as it may, provided that there is enough to be read (`read_ahead_is_bounded`).
-/
import Telemetry.Proofs.Stage.Chunking
import Telemetry.Proofs.Stage.Merging

namespace Telemetry.Stage

/-! ## Outputs that nobody receives from -/

namespace Outlet

variable {α : Type} {o : Outlet α} {cancelled : Bool}

/-- An output that nobody has received from, while the stage was not stopped. -/
structure Unread (o : Outlet α) (cancelled : Bool) : Prop where
  received : o.received = []
  quiet : cancelled = false
  listens : o.channel.dropped = false

theorem Unread.of_dropped (h : o.Unread cancelled) {channel : Channel α} {passed : List α}
    (dropped : channel.dropped = o.channel.dropped) : (⟨channel, passed, o.received⟩ : Outlet α).Unread cancelled :=
  ⟨h.received, h.quiet, dropped.trans h.listens⟩

/-- A task that does nothing to its output, closes it, or puts one item there, keeps the receiver. -/
theorem dropped_of_made {before after : Channel α}
    (made : (after.items = before.items ∧ after.dropped = before.dropped) ∨
      ∃ a, before.hasRoom = true ∧ before.dropped = false ∧ after = before.push a) :
    after.dropped = before.dropped := by
  rcases made with ⟨-, dropped⟩ | ⟨a, -, -, rfl⟩
  · exact dropped
  · rfl

theorem Unread.length_le (h : o.Unread cancelled) (near : o.Near) : o.passed.length ≤ 16 := by
  have near := near.length_le
  rw [h.received, List.length_nil, Nat.zero_add] at near
  exact near

/-- What was put into a full output is as much as a channel holds. -/
theorem Unread.length_of_full (h : o.Unread cancelled) (sound : o.Sound) (full : o.channel.hasRoom = false) :
    o.passed.length = 16 := by
  have kept := sound.kept h.listens
  rw [h.received, List.nil_append] at kept
  have most : o.channel.items.length ≤ 16 := sound.few
  have least : ¬o.channel.items.length < 16 := of_decide_eq_false full
  rw [← kept]
  omega

end Outlet

/-! ## Generators -/

/-- The record that a generator takes from its snapshot with its next step. It takes one whenever it holds
none, and looks only then whether the signal has come. -/
def Source.next (s : Source) : List Record := if s.task.hand.isSome then [] else s.task.rest.take 1

/-- A generator with the records that it has taken from its snapshot. -/
structure Drawing extends Generating where
  taken : List Record := []
deriving DecidableEq, Repr

namespace Drawing

/-- The generator of a snapshot, which has taken nothing yet. -/
def ofSnapshot (s : Snapshot) : Drawing := { toGenerating := Generating.ofSnapshot s }

/-- What an event takes from the snapshot: a step of the task takes the next record. -/
def drawn (d : Drawing) : Generating.Event → List Record
  | .work => d.stage.next
  | _ => []

/-- The generator after an event; none when it cannot happen. -/
def after? (d : Drawing) (e : Generating.Event) : Option Drawing :=
  (d.toGenerating.after? e).map fun w => { toGenerating := w, taken := d.taken ++ d.drawn e }

/-- A generator that has taken what it has sent, and one record more at most: the one in its hand, or the
one that it held when it ended. -/
structure Sound (snapshot : Snapshot) (d : Drawing) : Prop where
  generating : d.toGenerating.Sound snapshot
  near : d.outlet.Near
  live : d.stage.task.ended = false → d.taken = d.passed ++ d.stage.task.hand.toList
  few : d.taken.length ≤ d.passed.length + 1
  done : d.cancelled = false → d.stage.out.dropped = false → d.stage.task.ended = true → d.passed = snapshot

variable {snapshot : Snapshot} {d d' : Drawing} {e : Generating.Event} {events : List Generating.Event}

theorem sound_ofSnapshot (s : Snapshot) : (ofSnapshot s).Sound s :=
  ⟨Generating.sound_ofSnapshot s, ⟨[], rfl, Nat.zero_le _⟩, fun _ => rfl, Nat.zero_le _, nofun⟩

/-- What a step of a generator does to what it has taken and sent. -/
theorem Sound.work (h : d.Sound snapshot) {stage : Source} (step : d.stage.step d.cancelled = some stage) :
    ({ toGenerating := { d.toGenerating with stage, passed := d.passed ++ d.stage.out.added stage.out }
       taken := d.taken ++ d.stage.next } : Drawing).Sound snapshot := by
  have sound : Generating.Sound snapshot
      { d.toGenerating with stage, passed := d.passed ++ d.stage.out.added stage.out } :=
    h.generating.after (e := .work) (congrArg (Option.map _) step)
  have near := h.near.step h.generating.outlet (Source.output_of_step step)
  cases Source.move_of_step step with
  | finish live why =>
    have taken := h.live live
    have sent := h.generating.account.live live
    have still : d.passed ++ d.stage.out.added d.stage.finish.out = d.passed := by
      rw [show d.stage.out.added d.stage.finish.out = [] from Channel.added_close _, List.append_nil]
    refine ⟨sound, near, fun runs => Bool.noConfusion runs, ?_, fun quiet listens _ => ?_⟩
    · -- the record in its hand, or the next one, is lost
      rw [still, taken]
      cases hand : d.stage.task.hand with
      | none => cases rest : d.stage.task.rest <;> simp [Source.next, hand, rest]
      | some r => simp [Source.next, hand]
    · rw [still]
      rcases why with ⟨hand, rest⟩ | signal | gone
      · rw [hand, rest] at sent
        exact (List.append_nil _).symm.trans sent
      · exact absurd (signal.symm.trans quiet) Bool.noConfusion
      · exact absurd (gone.symm.trans listens) Bool.noConfusion
  | @take r rest live hand next =>
    have taken := h.live live
    rw [hand, Option.toList_none, List.append_nil] at taken
    refine ⟨sound, near, fun _ => ?_, ?_, fun _ _ ended => absurd (live.symm.trans ended) Bool.noConfusion⟩
    · simp [Source.next, Channel.added_self, hand, next, taken]
    · simp [Source.next, Channel.added_self, hand, next, taken]
  | @send r live hand listens =>
    have taken := h.live live
    rw [hand] at taken
    refine ⟨sound, near, fun _ => ?_, ?_, fun _ _ ended => absurd (live.symm.trans ended) Bool.noConfusion⟩
    · simp [Source.next, Channel.added_push, hand, taken]
    · simp [Source.next, Channel.added_push, hand, taken]

theorem Sound.after (h : d.Sound snapshot) (step : d.after? e = some d') : d'.Sound snapshot := by
  obtain ⟨w, became, rfl⟩ := Option.map_eq_some_iff.1 step
  have sound := h.generating.after became
  cases e with
  | signal =>
    cases became
    rw [show d.taken ++ d.drawn .signal = d.taken from List.append_nil _]
    exact ⟨sound, h.near, h.live, h.few, fun quiet => Bool.noConfusion quiet⟩
  | work =>
    obtain ⟨stage, moves, rfl⟩ := Option.map_eq_some_iff.1 became
    exact h.work moves
  | receive =>
    simp only [Generating.after?] at became
    split at became
    · rename_i r out got
      obtain ⟨rest, items, rfl⟩ := Channel.items_of_receive got
      cases became
      rw [show d.taken ++ d.drawn .receive = d.taken from List.append_nil _]
      exact ⟨sound, sound.outlet.near (h.generating.outlet.listens items), h.live, h.few, h.done⟩
    · cases became
  | leave =>
    cases became
    rw [show d.taken ++ d.drawn .leave = d.taken from List.append_nil _]
    exact ⟨sound, h.near, h.live, h.few, fun _ listens => Bool.noConfusion listens⟩

theorem sound_of_leadsTo (run : LeadsTo after? (ofSnapshot snapshot) events d) : d.Sound snapshot :=
  run.keeps (Sound snapshot) (fun _ _ _ sound step => sound.after step) (sound_ofSnapshot snapshot)

end Drawing

/-! ### A generator that nobody receives from -/

/-- The steps that a generator has before it, if it may take all of them. -/
def Source.toDo (s : Source) : Nat :=
  if s.task.ended then 0 else 2 * s.task.rest.length + s.task.hand.toList.length + 1

theorem Source.Move.toDo_lt {cancelled : Bool} {s t : Source} (m : s.Move cancelled t) : t.toDo < s.toDo := by
  cases m with
  | finish live why =>
    have left : 0 < s.toDo := by simp [toDo, live]
    exact left
  | take live hand next =>
    simp only [toDo, live, hand, next, Option.toList_none, Option.toList_some, List.length_cons, List.length_nil,
      Bool.false_eq_true, if_false]
    omega
  | send live hand listens => simp [toDo, live, hand]

/-- A generator that cannot go on has ended, or it holds a record for which there is no place. -/
theorem Source.full_of_stuck {s : Source} (live : s.task.ended = false) (listens : s.out.dropped = false)
    (stuck : s.step false = none) : s.out.hasRoom = false ∧ ∃ r, s.task.hand = some r := by
  simp only [step, live, Bool.false_eq_true, if_false] at stuck
  split at stuck
  · cases stuck
  · cases stuck
  · rename_i r hand
    rw [listens] at stuck
    refine ⟨?_, r, hand⟩
    by_contra room
    simp [room] at stuck

namespace Drawing

variable {snapshot : Snapshot} {d d' : Drawing}

theorem unread_of_work (unread : d.outlet.Unread d.cancelled) (step : d.after? .work = some d') :
    d'.outlet.Unread d'.cancelled ∧ d'.stage.toDo < d.stage.toDo := by
  obtain ⟨w, became, rfl⟩ := Option.map_eq_some_iff.1 step
  obtain ⟨stage, moves, rfl⟩ := Option.map_eq_some_iff.1 became
  have dropped := Outlet.dropped_of_made (Source.output_of_step moves)
  exact ⟨unread.of_dropped dropped, (Source.move_of_step moves).toDo_lt⟩

/-- A generator that nobody receives from takes all that it may. -/
theorem Sound.fills (h : d.Sound snapshot) (unread : d.outlet.Unread d.cancelled) (enough : 17 ≤ snapshot.length) :
    ComesTo after? (· = .work) d fun d' => d'.received = [] ∧ d'.taken.length = 17 := by
  refine .of_measure (fun d => d.Sound snapshot ∧ d.outlet.Unread d.cancelled) (fun d => d.stage.toDo) ?_ ?_
    ⟨h, unread⟩
  · rintro a e b ⟨sound, unread⟩ rfl step
    obtain ⟨unread', less⟩ := unread_of_work unread step
    exact ⟨⟨sound.after step, unread'⟩, less⟩
  · rintro d ⟨sound, unread⟩ still
    have stuck : d.stage.step false = none := by
      rw [← unread.quiet]
      exact Option.map_eq_none_iff.1 (Option.map_eq_none_iff.1 (still .work rfl))
    have live : d.stage.task.ended = false := by
      by_contra ended
      -- everything would have been sent, and there is no place for it
      have all := sound.done unread.quiet unread.listens (by simpa using ended)
      have few : d.passed.length ≤ 16 := unread.length_le sound.near
      rw [all] at few
      omega
    obtain ⟨full, r, hand⟩ := Source.full_of_stuck live unread.listens stuck
    have passed : d.passed.length = 16 := unread.length_of_full sound.generating.outlet full
    refine ⟨unread.received, ?_⟩
    rw [sound.live live, hand, List.length_append, passed]
    rfl

end Drawing

/-! ## Fan-ins -/

/-- The records in a forwarder's hand. -/
def Forwarder.held : Forwarder → Nat
  | holding _ => 1
  | _ => 0

/-- The records for which a forwarder has a hand free. -/
def Forwarder.free : Forwarder → Nat
  | waiting => 1
  | _ => 0

/-- What a step of a forwarder takes, puts into the output, and has in its hand. -/
theorem Lane.Move.count {cancelled : Bool} {out out' : Channel Record} {l l' : Lane}
    (m : l.Move cancelled out l' out') (listens : l.forwarder ≠ .ended → l.source.out.dropped = false) :
    (out.added out').length + l'.forwarder.held ≤ (l.source.out.taken l'.source.out).length + l.forwarder.held ∧
      (l.source.out.taken l'.source.out).length + l'.forwarder.free ≤ (out.added out').length + l.forwarder.free := by
  cases m with
  | finish live why =>
    rw [show l.source.out.taken l.finish.source.out = [] from Channel.taken_drop _, Channel.added_self]
    exact ⟨Nat.zero_le _, Nat.zero_le _⟩
  | receive waits items =>
    rw [Channel.taken_rest items (listens (by simp [waits])), Channel.added_self, waits]
    exact ⟨Nat.le_refl 1, Nat.le_refl 1⟩
  | send holds hears =>
    rw [Channel.taken_of_same rfl, Channel.added_push, holds]
    exact ⟨Nat.le_refl 1, Nat.le_refl 1⟩

/-- A forwarder leaves its output as it is, or puts one record there. -/
theorem Lane.made_of_step {cancelled : Bool} {out out' : Channel Record} {l l' : Lane}
    (step : l.step cancelled out = some (l', out')) :
    (out'.items = out.items ∧ out'.dropped = out.dropped) ∨
      ∃ r, out.hasRoom = true ∧ out.dropped = false ∧ out' = out.push r := by
  rcases output_of_step step with rfl | pushed
  · exact .inl ⟨rfl, rfl⟩
  · exact .inr pushed

namespace Merging

/-- A fan-in whose forwarders have taken what they have put into the output and what they hold, and of which
each that waits could take another record. -/
structure Held (inputs : List (Option Snapshot)) (w : Merging) : Prop where
  sound : w.Sound inputs
  near : w.outlet.Near
  least : w.merged.length + (w.stage.lanes.map (·.forwarder.held)).sum ≤ w.taken.length
  most : w.taken.length + (w.stage.lanes.map (·.forwarder.free)).sum ≤ w.merged.length + inputs.length
  origins : ∀ x ∈ w.sent, x.1 < inputs.length

variable {inputs : List (Option Snapshot)} {w w' : Merging} {e : Event} {events : List Event}

theorem held_ofInputs (inputs : List (Option Snapshot)) : (ofInputs inputs).Held inputs := by
  -- at first every forwarder waits
  have sums : ∀ f : Forwarder → Nat,
      ((ofInputs inputs).stage.lanes.map (fun l => f l.forwarder)).sum = inputs.length * f .waiting := by
    intro f
    simp [ofInputs, FanIn.ofSources, Function.comp_def]
  refine ⟨sound_ofInputs inputs, ⟨[], rfl, Nat.zero_le _⟩, ?_, ?_, fun x mem => ?_⟩
  · rw [sums]
    exact Nat.le_refl 0
  · rw [sums]
    simp [ofInputs, Forwarder.free]
  · cases mem

/-- Every change keeps what the forwarders have in their hands. -/
theorem Held.change (h : w.Held inputs) (change : w.Change w') : w'.Held inputs := by
  have sound := h.sound.change change
  cases change with
  | signal => exact ⟨sound, h.near, h.least, h.most, h.origins⟩
  | @feed i l source found fed =>
    have same : ∀ f : Forwarder → Nat,
        (w.stage.lanes.set i { l with source }).map (f ·.forwarder) = w.stage.lanes.map (f ·.forwarder) :=
      fun f => map_set_of_getElem? found rfl
    refine ⟨sound, h.near, ?_, ?_, fun x mem => ?_⟩
    · simp only [same]
      exact h.least
    · simp only [same]
      exact h.most
    · rcases List.mem_append.1 mem with mem | mem
      · exact h.origins x mem
      · obtain ⟨r, -, rfl⟩ := List.mem_map.1 mem
        obtain ⟨bound, -⟩ := List.getElem?_eq_some_iff.1 found
        exact h.sound.length ▸ bound
  | @forward i l l' out found step =>
    have move := Lane.move_of_step step
    obtain ⟨held, free⟩ := move.count fun live => by
      rw [← Bool.not_eq_true, (h.sound.lanes i l found).dropped]
      exact live
    have least := h.least
    have most := h.most
    have heldSum := sum_map_set (f := (·.forwarder.held)) (y := l') found
    have freeSum := sum_map_set (f := (·.forwarder.free)) (y := l') found
    refine ⟨sound, ?_, ?_, ?_, h.origins⟩
    · unfold outlet
      rw [map_snd_append_tagged]
      exact h.near.step h.sound.outlet (Lane.made_of_step step)
    · simp only [tagged, List.length_append, List.length_map]
      omega
    · simp only [tagged, List.length_append, List.length_map]
      omega
  | receive items =>
    exact ⟨sound, sound.outlet.near (h.sound.outlet.listens items), h.least, h.most, h.origins⟩
  | leave => exact ⟨sound, h.near, h.least, h.most, h.origins⟩

theorem held_of_leadsTo (run : LeadsTo after? (ofInputs inputs) events w) : w.Held inputs :=
  run.keeps (Held inputs) (fun _ _ _ held step => held.change (change_of_after step)) (held_ofInputs inputs)

end Merging

/-! ### A fan-in that nobody receives from -/

/-- The steps that a forwarder has before it, if it may take all of them. -/
def Lane.toDo (l : Lane) : Nat :=
  if l.forwarder = .ended then 0 else 2 * l.source.out.items.length + l.forwarder.held + 1

theorem Lane.Move.toDo_lt {cancelled : Bool} {out out' : Channel Record} {l l' : Lane}
    (m : l.Move cancelled out l' out') : l'.toDo < l.toDo := by
  cases m with
  | finish live why =>
    have left : 0 < l.toDo := by simp [toDo, live]
    exact left
  | receive waits items =>
    simp only [toDo, waits, items, Forwarder.held, List.length_cons, reduceCtorEq, if_false]
    omega
  | send holds hears => simp [toDo, holds, Forwarder.held]

/-- A forwarder that cannot go on has ended, or it waits for a record, or it holds one for which there is no
place. -/
theorem Lane.cases_of_stuck {l : Lane} {out : Channel Record} (listens : out.dropped = false)
    (stuck : l.step false out = none) :
    l.forwarder = .ended ∨ (l.forwarder = .waiting ∧ l.source.out.items = []) ∨
      ((∃ r, l.forwarder = .holding r) ∧ out.hasRoom = false) := by
  cases forwarder : l.forwarder with
  | ended => exact .inl rfl
  | waiting =>
    simp only [step, forwarder, Bool.false_eq_true, if_false] at stuck
    split at stuck
    · cases stuck
    · cases stuck
    · rename_i nothing
      exact .inr (.inl ⟨rfl, (Channel.nothing_of_receive nothing).1⟩)
  | holding r =>
    simp only [step, forwarder, listens, Bool.false_eq_true, if_false] at stuck
    refine .inr (.inr ⟨⟨r, rfl⟩, ?_⟩)
    by_contra room
    simp [room] at stuck

namespace Merging

variable {inputs : List (Option Snapshot)} {w w' : Merging}

/-- The steps that the forwarders have before them. -/
def toDo (w : Merging) : Nat := (w.stage.lanes.map Lane.toDo).sum

theorem unread_of_forward (unread : w.outlet.Unread w.cancelled) {i : Nat}
    (step : w.after? (.forward i) = some w') :
    w'.outlet.Unread w'.cancelled ∧ w'.sent = w.sent ∧ w'.toDo < w.toDo := by
  obtain ⟨stage, forwarded, rfl⟩ := Option.map_eq_some_iff.1 step
  obtain ⟨l, found, forwarded⟩ := Option.bind_eq_some_iff.1 forwarded
  obtain ⟨⟨l', out⟩, moves, same⟩ := Option.bind_eq_some_iff.1 forwarded
  cases same
  refine ⟨unread.of_dropped ?_, rfl, ?_⟩
  · have ends : (if FanIn.isOver (w.stage.lanes.set i l') then out.close else out).dropped = out.dropped := by
      split <;> rfl
    exact ends.trans (Outlet.dropped_of_made (Lane.made_of_step moves))
  · have sum := sum_map_set (f := Lane.toDo) (y := l') found
    have less := (Lane.move_of_step moves).toDo_lt
    show ((w.stage.lanes.set i l').map Lane.toDo).sum < (w.stage.lanes.map Lane.toDo).sum
    omega

/-- A forwarder that cannot go on, although much more was sent on its input than its output holds, has a
record in its hand for which there is no place. -/
theorem Held.holds_of_stuck (h : w.Held inputs) (unread : w.outlet.Unread w.cancelled) {i : Nat} {l : Lane}
    (found : w.stage.lanes[i]? = some l) (enough : 17 ≤ (ofInput i w.sent).length)
    (stuck : w.after? (.forward i) = none) : (∃ r, l.forwarder = .holding r) ∧ w.stage.out.hasRoom = false := by
  have account := h.sound.lanes i l found
  have few : (w.merged.map (·.2)).length ≤ 16 := unread.length_le h.near
  rw [List.length_map] at few
  have part : (ofInput i w.merged).length ≤ w.merged.length := by
    unfold ofInput
    rw [List.length_map]
    exact List.length_filter_le _ _
  have still : l.step false w.stage.out = none := by
    cases step : l.step false w.stage.out with
    | none => rfl
    | some next => simp [after?, FanIn.forward, found, unread.quiet, step] at stuck
  rcases Lane.cases_of_stuck unread.listens still with ended | ⟨waits, items⟩ | full
  · have all := (account.done ⟨unread.quiet, unread.listens⟩ ended).2
    rw [all] at part
    omega
  · obtain ⟨held, queued⟩ := account.live (by simp [waits])
    rw [waits, show Forwarder.hand? .waiting = none from rfl, Option.toList_none, List.append_nil] at held
    rw [items, List.append_nil, ← held] at queued
    rw [queued] at part
    omega
  · exact full

/-- A fan-in that nobody receives from takes all that it may. -/
theorem Held.fills (h : w.Held inputs) (unread : w.outlet.Unread w.cancelled) (all : 16 + inputs.length ≤ w.sent.length)
    (enough : ∀ i < inputs.length, 17 ≤ (ofInput i w.sent).length) :
    ComesTo after? (fun e => ∃ i, e = .forward i) w fun w' =>
      w'.received = [] ∧ w'.taken.length = 16 + inputs.length := by
  refine .of_measure (fun v => v.Held inputs ∧ v.outlet.Unread v.cancelled ∧ v.sent = w.sent) toDo ?_ ?_
    ⟨h, unread, rfl⟩
  · rintro a _ b ⟨held, unread, sent⟩ ⟨i, rfl⟩ step
    obtain ⟨unread', same, less⟩ := unread_of_forward unread step
    exact ⟨⟨held.change (change_of_after step), unread', same.trans sent⟩, less⟩
  · rintro v ⟨held, unread, sent⟩ still
    have holds : ∀ (i : Nat) (l : Lane), v.stage.lanes[i]? = some l →
        (∃ r, l.forwarder = .holding r) ∧ v.stage.out.hasRoom = false := by
      intro i l found
      obtain ⟨bound, -⟩ := List.getElem?_eq_some_iff.1 found
      exact held.holds_of_stuck unread found (sent ▸ enough i (held.sound.length ▸ bound)) (still _ ⟨i, rfl⟩)
    have hands : (v.stage.lanes.map (·.forwarder.held)).sum = inputs.length := by
      have each : v.stage.lanes.map (·.forwarder.held) = v.stage.lanes.map fun _ => 1 := by
        refine List.map_congr_left fun l mem => ?_
        obtain ⟨i, found⟩ := List.mem_iff_getElem?.1 mem
        obtain ⟨⟨r, holds⟩, -⟩ := holds i l found
        rw [holds]
        rfl
      rw [each, ← held.sound.length]
      simp
    -- there is an input, since something was sent
    obtain ⟨i, bound⟩ : ∃ i, i < inputs.length := by
      cases records : w.sent with
      | nil =>
        rw [records, List.length_nil] at all
        omega
      | cons x rest => exact ⟨x.1, h.origins x (by simp [records])⟩
    have found := List.getElem?_eq_getElem (held.sound.length ▸ bound)
    have merged : (v.merged.map (·.2)).length = 16 :=
      unread.length_of_full held.sound.outlet (holds i _ found).2
    have least := held.least
    have most := held.most
    rw [List.length_map] at merged
    rw [hands] at least
    exact ⟨unread.received, by omega⟩

end Merging

/-! ## Batchers -/

/-- No batch is larger than a full one. -/
theorem IsCut.length_le {size : Nat} {batches full : List Batch} {short : Option Batch}
    (h : IsCut size batches full short) {b : Batch} (mem : b ∈ batches) : b.length ≤ Batcher.effective size := by
  rw [h.parts] at mem
  rcases List.mem_append.1 mem with mem | mem
  · exact Nat.le_of_eq (h.full b mem)
  · exact Nat.le_of_lt (h.short b (Option.mem_toList.1 mem)).2

theorem length_flatten_le {batches : List Batch} {n : Nat} (h : ∀ b ∈ batches, b.length ≤ n) :
    batches.flatten.length ≤ batches.length * n := by
  induction batches with
  | nil => simp
  | cons b batches ih =>
    have first := h b List.mem_cons_self
    have others := ih fun c mem => h c (List.mem_cons_of_mem _ mem)
    rw [List.flatten_cons, List.length_append, List.length_cons, Nat.succ_mul]
    omega

namespace Grouping

variable {size : Nat} {w w' : Grouping} {e : Event} {events : List Event}

/-- A batcher that has taken what is in its batches, and not more than another batch. -/
structure Held (size : Nat) (w : Grouping) : Prop where
  sound : w.Sound size
  near : w.outlet.Near
  most : w.taken.length ≤ w.passed.flatten.length + Batcher.effective size

theorem held_initial (size : Nat) : initial.Held size :=
  ⟨sound_initial size, ⟨[], rfl, Nat.zero_le _⟩, Nat.zero_le _⟩

theorem Sound.length_le (h : w.Sound size) {b : Batch} (mem : b ∈ w.passed) :
    b.length ≤ Batcher.effective size := by
  obtain ⟨full, short, cut, -⟩ := h.cuts.cut
  exact cut.length_le (List.mem_append_left _ mem)

/-- A batcher that still runs holds a batch at most. -/
theorem Sound.taken_le (h : w.Sound size) (live : w.stage.task ≠ .ended) :
    w.taken.length ≤ w.passed.flatten.length + Batcher.effective size := by
  have held := h.account.held live
  have room := h.cuts.room
  obtain ⟨full, short, cut, -⟩ := h.cuts.cut
  rw [← held, List.length_append, List.flatten_append, List.length_append]
  cases task : w.stage.task with
  | offering b =>
    have few : b.length ≤ Batcher.effective size := cut.length_le (by simp [task, Batcher.offer?])
    simpa [Batcher.offer?, Batcher.buffer] using few
  | filling buffer =>
    rw [task] at room
    simpa [Batcher.offer?] using Nat.le_of_lt room
  | starting | ended => simp [Batcher.offer?, Batcher.buffer]

/-- Every change keeps what a batcher holds within bounds. -/
theorem Held.change (h : w.Held size) (change : w.Change size w') : w'.Held size := by
  have sound := h.sound.change change
  cases change with
  | signal | send isOpen hears | close isOpen | leave => exact ⟨sound, h.near, h.most⟩
  | receive items => exact ⟨sound, sound.outlet.near (h.sound.outlet.listens items), h.most⟩
  | @work stage step =>
    refine ⟨sound, h.near.step h.sound.outlet (Batching.output_of_step step), ?_⟩
    by_cases ended : stage.task = .ended
    · -- a batcher that ends throws away what it holds
      cases Batching.move_of_step step with
      | finish live why =>
        show (w.taken ++ w.stage.input.taken w.stage.input.drop).length ≤
          (w.passed ++ w.stage.out.added w.stage.out.close).flatten.length + _
        rw [Channel.taken_drop, Channel.added_close, List.append_nil, List.append_nil]
        exact h.most
      | start task => cases ended
      | fill task items short => cases ended
      | complete task items full => cases ended
      | last task nonempty items closed => cases ended
      | send task listens => cases ended
    · exact sound.taken_le ended

theorem held_of_leadsTo (run : LeadsTo (after? size) initial events w) : w.Held size :=
  run.keeps (Held size) (fun _ _ _ held step => held.change (change_of_after step)) (held_initial size)

/-- A batcher reads ahead as many records as there are in the batches of its output and in one more. -/
theorem Held.taken_le (h : w.Held size) :
    w.taken.length ≤ w.received.flatten.length + 17 * Batcher.effective size := by
  have most := h.most
  obtain ⟨ahead, passed, few⟩ := h.near
  have passed : w.passed = w.received ++ ahead := passed
  have records : ahead.flatten.length ≤ ahead.length * Batcher.effective size :=
    length_flatten_le fun b mem => h.sound.length_le (passed ▸ List.mem_append_right _ mem)
  have bound : ahead.length * Batcher.effective size ≤ 16 * Batcher.effective size :=
    Nat.mul_le_mul_right _ few
  rw [passed, List.flatten_append, List.length_append] at most
  omega

end Grouping

/-! ### A batcher that nobody receives from -/

/-- A batcher that cannot go on has ended, or it waits for a record, or it offers a batch for which there is
no place. -/
theorem Batching.cases_of_stuck {size : Nat} {b : Batching} (listens : b.out.dropped = false)
    (stuck : b.step false size = none) :
    b.task = .ended ∨ ((∃ buffer, b.task = .filling buffer) ∧ b.input.items = []) ∨
      ((∃ batch, b.task = .offering batch) ∧ b.out.hasRoom = false) := by
  cases task : b.task with
  | ended => exact .inl rfl
  | starting =>
    simp only [step, task] at stuck
    split at stuck <;> cases stuck
  | filling buffer =>
    simp only [step, task, Bool.false_eq_true, if_false] at stuck
    split at stuck
    · split at stuck <;> cases stuck
    · split at stuck <;> cases stuck
    · rename_i nothing
      exact .inr (.inl ⟨⟨buffer, rfl⟩, (Channel.nothing_of_receive nothing).1⟩)
  | offering batch =>
    simp only [step, task, listens, Bool.false_eq_true, if_false] at stuck
    refine .inr (.inr ⟨⟨batch, rfl⟩, ?_⟩)
    by_contra room
    simp [room] at stuck

namespace Grouping

variable {size : Nat} {w w' : Grouping}

theorem unread_of_work (unread : w.outlet.Unread w.cancelled) (step : w.after? size .work = some w') :
    w'.outlet.Unread w'.cancelled ∧ w'.sent = w.sent ∧ w'.toDo < w.toDo := by
  obtain ⟨stage, moves, rfl⟩ := Option.map_eq_some_iff.1 step
  have dropped := Outlet.dropped_of_made (Batching.output_of_step moves)
  exact ⟨unread.of_dropped dropped, rfl, (Batching.move_of_step moves).toDo_lt⟩

/-- A batcher that cannot go on, although much was sent to it that its output cannot hold, offers a full
batch behind the sixteen that the output holds. -/
theorem Held.taken_eq_of_stuck (h : w.Held size) (unread : w.outlet.Unread w.cancelled)
    (fits : Batcher.fits size = true) (enough : 17 * Batcher.effective size ≤ w.sent.length)
    (stuck : w.after? size .work = none) : w.taken.length = 17 * Batcher.effective size := by
  have pos := Batcher.effective_pos size
  have passed : w.passed.length ≤ 16 := unread.length_le h.near
  have records : w.passed.flatten.length ≤ 16 * Batcher.effective size :=
    Nat.le_trans (length_flatten_le fun b mem => h.sound.length_le mem) (Nat.mul_le_mul_right _ passed)
  have still : w.stage.step false size = none := by
    rw [← unread.quiet]
    exact Option.map_eq_none_iff.1 stuck
  rcases Batching.cases_of_stuck unread.listens still with ended | ⟨⟨buffer, task⟩, items⟩ | ⟨⟨b, task⟩, noRoom⟩
  · have all := (h.sound.account.done ⟨unread.quiet, unread.listens, fits⟩ ended).2
    rw [all] at records
    omega
  · have live : w.stage.task ≠ .ended := by simp [task]
    obtain ⟨held, left⟩ := h.sound.account.live live
    have room := h.sound.cuts.room
    rw [task] at held room
    rw [items, List.append_nil, ← held] at left
    rw [← left, List.length_append] at enough
    have few : buffer.length < Batcher.effective size := room
    have same : (Batcher.filling buffer).hand.length = buffer.length := rfl
    omega
  · have live : w.stage.task ≠ .ended := by simp [task]
    have whole : w.passed.length = 16 := unread.length_of_full h.sound.outlet noRoom
    have held := h.sound.account.held live
    obtain ⟨full, short, cut, all⟩ := h.sound.cuts.cut
    rw [task] at cut all held
    rw [show (Batcher.offering b).buffer = [] from rfl, List.append_nil] at held
    have parts := congrArg List.length cut.parts
    have inFull := IsCut.length_flatten_full cut.full
    simp only [Batcher.offer?, Option.toList_some, List.length_append, List.length_singleton, whole] at parts
    rw [← held, show w.passed ++ (Batcher.offering b).offer?.toList = full ++ short.toList from cut.parts,
      List.flatten_append, List.length_append, inFull]
    cases last : short with
    | none =>
      rw [last] at parts
      have count : full.length = 17 := by simpa using parts.symm
      rw [count]
      rfl
    | some rest =>
      -- a smaller batch at the end would hold the last record that was sent
      have few := (cut.short rest last).2
      have sent := (all (by simp [last])).2
      rw [cut.parts, List.flatten_append] at sent
      rw [← sent, List.length_append, inFull, last] at enough
      rw [last] at parts
      have count : full.length = 16 := by simpa using parts.symm
      rw [count] at enough
      simp at enough
      omega

/-- A batcher that nobody receives from takes all that it may. -/
theorem Held.fills (h : w.Held size) (unread : w.outlet.Unread w.cancelled) (fits : Batcher.fits size = true)
    (enough : 17 * Batcher.effective size ≤ w.sent.length) :
    ComesTo (after? size) (· = .work) w fun w' =>
      w'.received = [] ∧ w'.taken.length = 17 * Batcher.effective size := by
  refine .of_measure (fun v => v.Held size ∧ v.outlet.Unread v.cancelled ∧ v.sent = w.sent) toDo ?_ ?_
    ⟨h, unread, rfl⟩
  · rintro a _ b ⟨held, unread, sent⟩ rfl step
    obtain ⟨unread', same, less⟩ := unread_of_work unread step
    exact ⟨⟨held.change (change_of_after step), unread', same.trans sent⟩, less⟩
  · rintro v ⟨held, unread, sent⟩ still
    exact ⟨unread.received, held.taken_eq_of_stuck unread fits (sent ▸ enough) (still .work rfl)⟩

end Grouping

/-! ## All stages -/

/-- However the tasks of a stage take their turns, records are sent and received, the signal comes and the
receiver goes: a generator is never more than 17 records ahead of its receiver, a fan-in of some inputs
never more than 16 and one for each input, and a batcher never more than 17 batches. A stage that nobody
receives from, and that nobody stops, comes to be that far ahead when enough was sent to it. For a batcher
that is a number of records that can be in memory, whose addresses have 64 bits, since none of them was
received. -/
theorem read_ahead_is_bounded :
    (∀ (snapshot : Snapshot) (events : List Generating.Event) (d : Drawing),
      LeadsTo Drawing.after? (Drawing.ofSnapshot snapshot) events d →
        d.taken.length ≤ d.received.length + 17 ∧
          (d.outlet.Unread d.cancelled → 17 ≤ snapshot.length →
            ComesTo Drawing.after? (· = .work) d fun d' => d'.received = [] ∧ d'.taken.length = 17)) ∧
    (∀ (inputs : List (Option Snapshot)) (events : List Merging.Event) (w : Merging),
      LeadsTo Merging.after? (Merging.ofInputs inputs) events w →
        w.taken.length ≤ w.received.length + (16 + inputs.length) ∧
          (w.outlet.Unread w.cancelled → 16 + inputs.length ≤ w.sent.length →
            (∀ i < inputs.length, 17 ≤ (ofInput i w.sent).length) →
              ComesTo Merging.after? (fun e => ∃ i, e = .forward i) w fun w' =>
                w'.received = [] ∧ w'.taken.length = 16 + inputs.length)) ∧
    (∀ (size : Nat) (events : List Grouping.Event) (w : Grouping),
      LeadsTo (Grouping.after? size) Grouping.initial events w →
        w.taken.length ≤ w.received.flatten.length + 17 * Batcher.effective size ∧
          (w.outlet.Unread w.cancelled → 17 * Batcher.effective size ≤ w.sent.length →
            Batcher.recordOctets * w.sent.length < 2 ^ 64 →
              ComesTo (Grouping.after? size) (· = .work) w fun w' =>
                w'.received = [] ∧ w'.taken.length = 17 * Batcher.effective size)) := by
  refine ⟨?_, ?_, ?_⟩
  · intro snapshot events d run
    have sound := Drawing.sound_of_leadsTo run
    have few := sound.few
    have near : d.passed.length ≤ d.received.length + 16 := sound.near.length_le
    exact ⟨by omega, sound.fills⟩
  · intro inputs events w run
    have held := Merging.held_of_leadsTo run
    have most := held.most
    have near : (w.merged.map (·.2)).length ≤ w.received.length + 16 := held.near.length_le
    rw [List.length_map] at near
    exact ⟨by omega, held.fills⟩
  · intro size events w run
    have held := Grouping.held_of_leadsTo run
    refine ⟨held.taken_le, fun unread enough memory => held.fills unread (decide_eq_true ?_) enough⟩
    simp only [Batcher.recordOctets, Batcher.memoryLimit] at memory ⊢
    omega

/-- A generator of eighteen records, a fan-in of two inputs on which seventeen records each were sent, and a
batcher to which thirty-four records were sent, two to a batch. The first two stop with records left, the
last one with a record for every place. -/
theorem read_ahead_is_bounded_unread :
    (ComesTo Drawing.after? (· = .work) (Drawing.ofSnapshot (List.replicate 18 (Record.counter "a" 1))) fun d =>
      d.received = [] ∧ d.taken.length = 17) ∧
    (∃ (events : List Merging.Event) (w : Merging), LeadsTo Merging.after? (Merging.ofInputs [none, none]) events w ∧
      (w.outlet.Unread w.cancelled ∧ (ofInput 0 w.sent).length = 17 ∧ (ofInput 1 w.sent).length = 17) ∧
      ComesTo Merging.after? (fun e => ∃ i, e = .forward i) w fun w' => w'.received = [] ∧ w'.taken.length = 18) ∧
    (∃ (events : List Grouping.Event) (w : Grouping), LeadsTo (Grouping.after? 2) Grouping.initial events w ∧
      (w.outlet.Unread w.cancelled ∧ w.sent.length = 34) ∧
      ComesTo (Grouping.after? 2) (· = .work) w fun w' => w'.received = [] ∧ w'.taken.length = 34) := by
  refine ⟨?_, ?_, ?_⟩
  · exact (read_ahead_is_bounded.1 _ [] _ (LeadsTo.nil_iff.2 rfl)).2 ⟨rfl, rfl, rfl⟩ (by simp)
  · let sends : List Merging.Event :=
      List.replicate 17 (.send 0 (Record.counter "a" 1)) ++ List.replicate 17 (.send 1 (Record.counter "b" 2))
    obtain ⟨w, run, facts⟩ := LeadsTo.exists_of_any Merging.after? (Merging.ofInputs [none, none]) sends
      (fun w => decide ((w.received = [] ∧ w.cancelled = false ∧ w.stage.out.dropped = false) ∧
        (ofInput 0 w.sent).length = 17 ∧ (ofInput 1 w.sent).length = 17 ∧ w.sent.length = 34))
      (by decide +kernel)
    obtain ⟨⟨received, quiet, listens⟩, first, second, all⟩ := of_decide_eq_true facts
    refine ⟨sends, w, run, ⟨⟨received, quiet, listens⟩, first, second⟩, ?_⟩
    refine (read_ahead_is_bounded.2.1 _ sends w run).2 ⟨received, quiet, listens⟩ ?_ ?_
    · rw [all]
      decide
    · intro i bound
      match i, bound with
      | 0, _ => exact Nat.le_of_eq first.symm
      | 1, _ => exact Nat.le_of_eq second.symm
  · let sends : List Grouping.Event := List.replicate 34 (.send (Record.counter "a" 1))
    obtain ⟨w, run, facts⟩ := LeadsTo.exists_of_any (Grouping.after? 2) Grouping.initial sends
      (fun w => decide ((w.received = [] ∧ w.cancelled = false ∧ w.stage.out.dropped = false) ∧ w.sent.length = 34))
      (by decide +kernel)
    obtain ⟨⟨received, quiet, listens⟩, all⟩ := of_decide_eq_true facts
    refine ⟨sends, w, run, ⟨⟨received, quiet, listens⟩, all⟩, ?_⟩
    refine (read_ahead_is_bounded.2.2 2 sends w run).2 ⟨received, quiet, listens⟩ ?_ ?_
    · rw [all]
      decide
    · rw [all]
      decide

end Telemetry.Stage
