/-
Tasks that take turns. A task that was set going joins a row; the first of the row goes as far as it
can, and the tasks that it sets going on its way join the row behind the others.
-/

namespace Telemetry

/-- Something that is made of tasks, with the row of those that were set going. -/
structure Turns (σ τ : Type) where
  state : σ
  row : List τ := []

namespace Turns

variable {σ τ : Type} [DecidableEq τ]

/-- How tasks go on: a step of a task, if it can do something; the tasks that a step has set going,
by what was before it and what came of it; and all tasks that there are. -/
structure Rules (σ τ : Type) where
  step : σ → τ → Option σ
  woken : σ → σ → τ → List τ
  tasks : σ → List τ

/-- The tasks that can do something. -/
def Rules.ready (r : Rules σ τ) (s : σ) (tasks : List τ) : List τ :=
  tasks.filter fun t => (r.step s t).isSome

/-- More steps than any rehearsal takes. -/
def plenty : Nat := 1000000000000

/-- Tasks join a row. One that stands in it keeps its place. -/
def join (row tasks : List τ) : List τ :=
  tasks.foldl (fun row t => if t ∈ row then row else row ++ [t]) row

/-- Some tasks are set going. -/
def wake (tasks : List τ) (t : Turns σ τ) : Turns σ τ := { t with row := join t.row tasks }

/-- All tasks that can do something are set going. -/
def stir (r : Rules σ τ) (t : Turns σ τ) : Turns σ τ := t.wake (r.ready t.state (r.tasks t.state))

/-- One task goes as far as it can, `fuel` steps at most. -/
def play (r : Rules σ τ) (task : τ) : Nat → Turns σ τ → Turns σ τ
  | 0, t => t
  | fuel + 1, t => match r.step t.state task with
    | none => t
    | some state =>
      let woken := (r.woken t.state state task).filter (· != task)
      play r task fuel { state, row := join t.row woken }

/-- The tasks take turns until nobody is left in the row, `fuel` turns at most. -/
def run (r : Rules σ τ) : Nat → Turns σ τ → Turns σ τ
  | 0, t => t
  | fuel + 1, t => match t.row with
    | task :: row => run r fuel (play r task plenty { t with row })
    | [] => t

/-- The tasks take turns until nobody is left in the row. -/
def settle (r : Rules σ τ) (t : Turns σ τ) : Turns σ τ := run r plenty t

end Turns

end Telemetry
