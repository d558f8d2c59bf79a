/-
Places that are given first come, first served. Who finds no place waits in a row, and a place that
comes free is kept for the first of the row until he takes it.
-/

namespace Telemetry.Rehearsal

/-- Those who wait for a place, and those for whom one is kept. -/
structure Row where
  waiting : List Nat := []
  kept : List Nat := []
deriving DecidableEq, Repr

namespace Row

/-- Whether `i` may take one of the `free` places: one is kept for him, or one is kept for nobody. -/
def mayTake (r : Row) (free i : Nat) : Bool := i ∈ r.kept || r.kept.length < free

/-- A step for which a place is needed: it is made with a place, and without one whoever makes it
joins the row. -/
def step {α : Type} (r : Row) (free i : Nat) (made unmade : Option α) : Option (α × Row) :=
  if r.mayTake free i then made.map (·, { r with kept := r.kept.erase i })
  else if i ∈ r.waiting then none
  else unmade.map (·, { r with waiting := r.waiting ++ [i] })

/-- What comes of a step is what is made with a place, or what is there without one. -/
theorem step_fst {α : Type} {r : Row} {free i : Nat} {made unmade : Option α} {p : α × Row}
    (h : r.step free i made unmade = some p) : made = some p.1 ∨ unmade = some p.1 := by
  unfold step at h
  split at h
  · obtain ⟨a, ha, rfl⟩ := Option.map_eq_some_iff.1 h
    exact .inl ha
  · split at h
    · cases h
    · obtain ⟨a, ha, rfl⟩ := Option.map_eq_some_iff.1 h
      exact .inr ha

/-- A place has come free. -/
def free (r : Row) : Row :=
  match r.waiting with
  | [] => r
  | i :: waiting => { waiting, kept := r.kept ++ [i] }

end Row

end Telemetry.Rehearsal
