/-
A generator on its own: its task takes steps, somebody receives from it, the signal may come, and the
receiver may go, in any order (`Generating`). What it has sent, what it holds and what it has not looked at
are its snapshot in its order, as long as it runs; and what it has sent when it ended is a part of the
snapshot from its beginning (`Source.Account`).
-/
import Telemetry.Proofs.Run
import Telemetry.Proofs.Stage.Outlet

namespace Telemetry.Stage

/-! ## What a generator has sent -/

/-- A generator that has sent some records of its snapshot. -/
structure Source.Account (snapshot : Snapshot) (s : Source) (sent : List Record) : Prop where
  live : s.task.ended = false → sent ++ (s.task.hand.toList ++ s.task.rest) = snapshot
  ended : s.task.ended = true → sent <+: snapshot
  closed : s.out.closed = s.task.ended

namespace Source

variable {snapshot : Snapshot} {s t : Source} {sent : List Record} {cancelled : Bool}

theorem account_ofSnapshot (snapshot : Snapshot) : (ofSnapshot snapshot).Account snapshot [] :=
  ⟨fun _ => rfl, fun ended => Bool.noConfusion ended, rfl⟩

theorem Account.isPrefix (h : s.Account snapshot sent) : sent <+: snapshot := by
  cases ended : s.task.ended with
  | true => exact h.ended ended
  | false => exact ⟨_, h.live ended⟩

theorem Account.move (h : s.Account snapshot sent) (m : s.Move cancelled t) :
    t.Account snapshot (sent ++ s.out.added t.out) := by
  cases m with
  | finish live why =>
    show s.finish.Account snapshot (sent ++ s.out.added s.out.close)
    rw [Channel.added_close, List.append_nil]
    exact ⟨fun runs => Bool.noConfusion runs, fun _ => h.isPrefix, rfl⟩
  | take live hand next =>
    have left := h.live live
    rw [hand, next] at left
    rw [Channel.added_self, List.append_nil]
    exact ⟨fun _ => left, fun ended => absurd (live.symm.trans ended) Bool.noConfusion, h.closed⟩
  | @send r live hand listens =>
    have left := h.live live
    rw [hand, Option.toList_some, ← List.append_assoc] at left
    rw [Channel.added_push]
    exact ⟨fun _ => left, fun ended => absurd (live.symm.trans ended) Bool.noConfusion, h.closed⟩

/-- A generator puts a record into its output only when there is a place and somebody to take it. -/
theorem output_of_step (h : s.step cancelled = some t) :
    (t.out.items = s.out.items ∧ t.out.dropped = s.out.dropped) ∨
      ∃ r, s.out.hasRoom = true ∧ s.out.dropped = false ∧ t.out = s.out.push r := by
  unfold step at h
  split at h
  · cases h
  · split at h
    · cases h
      exact .inl ⟨rfl, rfl⟩
    · split at h <;> cases h <;> exact .inl ⟨rfl, rfl⟩
    · split at h
      · cases h
        exact .inl ⟨rfl, rfl⟩
      · split at h
        · cases h
          exact .inl ⟨rfl, rfl⟩
        · rename_i r hand quiet listens
          split at h
          · rename_i room
            cases h
            exact .inr ⟨r, room, by simpa using listens, rfl⟩
          · cases h

end Source

/-! ## What can happen to a generator -/

/-- A generator with its history: what its task has put into the output, and what was received. -/
structure Generating where
  stage : Source
  cancelled : Bool := false
  passed : List Record := []
  received : List Record := []
deriving DecidableEq, Repr

namespace Generating

/-- What happens to a generator: the signal is set off, its task takes a step, a record is received, or
the receiver goes. -/
inductive Event where
  | signal
  | work
  | receive
  | leave
deriving DecidableEq, Repr

/-- The generator of a snapshot, of which nothing has been done yet. -/
def ofSnapshot (s : Snapshot) : Generating := { stage := Source.ofSnapshot s }

/-- The generator after an event; none when it cannot happen. -/
def after? (w : Generating) : Event → Option Generating
  | .signal => some { w with cancelled := true }
  | .work => (w.stage.step w.cancelled).map fun stage =>
    { w with stage, passed := w.passed ++ w.stage.out.added stage.out }
  | .receive => match w.stage.out.receive with
    | (.item r, out) => some { w with stage := { w.stage with out }, received := w.received ++ [r] }
    | _ => none
  | .leave => some { w with stage := { w.stage with out := w.stage.out.drop } }

/-- The output with its history. -/
def outlet (w : Generating) : Outlet Record := ⟨w.stage.out, w.passed, w.received⟩

/-- A generator that has sent its snapshot from the beginning. -/
structure Sound (snapshot : Snapshot) (w : Generating) : Prop where
  account : w.stage.Account snapshot w.passed
  outlet : w.outlet.Sound

variable {snapshot : Snapshot} {w w' : Generating} {e : Event} {events : List Event}

theorem sound_ofSnapshot (s : Snapshot) : (ofSnapshot s).Sound s :=
  ⟨Source.account_ofSnapshot s, Outlet.sound_empty⟩

theorem Sound.after (h : w.Sound snapshot) (step : w.after? e = some w') : w'.Sound snapshot := by
  cases e with
  | signal =>
    cases step
    exact ⟨h.account, h.outlet⟩
  | work =>
    obtain ⟨stage, moves, rfl⟩ := Option.map_eq_some_iff.1 step
    exact ⟨h.account.move (Source.move_of_step moves), h.outlet.step (Source.output_of_step moves)⟩
  | receive =>
    simp only [after?] at step
    split at step
    · rename_i r out got
      obtain ⟨rest, items, rfl⟩ := Channel.items_of_receive got
      cases step
      exact ⟨⟨h.account.live, h.account.ended, h.account.closed⟩, h.outlet.receive items⟩
    · cases step
  | leave =>
    cases step
    exact ⟨⟨h.account.live, h.account.ended, h.account.closed⟩, h.outlet.drop⟩

theorem sound_of_leadsTo (run : LeadsTo after? (ofSnapshot snapshot) events w) : w.Sound snapshot :=
  run.keeps (Sound snapshot) (fun _ _ _ sound step => sound.after step) (sound_ofSnapshot snapshot)

end Generating

end Telemetry.Stage
