/-
The timetable of an agent that is set going with two timers: which tick of its poll timer falls between
which ticks of its report timer, and so what it has to have collected and handed on when the signal
comes. Nothing of the delivery appears here.
-/
import Telemetry.Agent.Launch
import Telemetry.Proofs.Agent.Ledger
import Telemetry.Proofs.Sampling.Reading

namespace Telemetry

open Sampling (Sampler)

/-- The numbers of the ticks before a moment, of a timer that was started at zero. -/
def Span.ticks (period : Span) (time : Time) : List Nat :=
  (List.range' 1 time).filter fun k => decide (k * period < time)

namespace Schedule

/-- The numbers of the polls that belong to the `m`-th report: those behind the report before it, one
at its own moment among them. -/
def window (t : Schedule) (m : Nat) : List Nat :=
  (List.range' 1 (m * t.report)).filter fun k =>
    decide ((m - 1) * t.report < k * t.poll ∧ k * t.poll ≤ m * t.report)

/-- The `m`-th report; none when no poll belongs to it. -/
def report? (t : Schedule) (sampler : Sampler) (m : Nat) : Option (Time × List Snapshot) :=
  if t.window m = [] then none else some (m * t.report, (t.window m).map sampler.reading)

/-- What has to be collected and handed on before a moment. -/
def ledger (t : Schedule) (sampler : Sampler) (time : Time) : Agent.Ledger where
  polls := (Span.ticks t.poll time).map fun k => (k * t.poll, sampler.reading k)
  reports := (Span.ticks t.report time).filterMap (t.report? sampler)
  flushes := ((Span.ticks t.report time).filterMap (t.report? sampler)).map (·.2)

end Schedule

/-! ## Ticks by their numbers -/

/-- The numbers that fall between two bounds, picked from those up to some number. -/
theorem filter_range' {p : Nat → Bool} {lo hi n : Nat} (order : lo ≤ hi) (within : hi ≤ n)
    (spec : ∀ k, 0 < k → (p k = true ↔ lo < k ∧ k ≤ hi)) :
    (List.range' 1 n).filter p = List.range' (lo + 1) (hi - lo) := by
  have cut : List.range' 1 n =
      List.range' 1 lo ++ List.range' (lo + 1) (hi - lo) ++ List.range' (hi + 1) (n - hi) := by
    rw [Nat.add_comm lo 1, List.range'_append_1, show lo + (hi - lo) = hi by omega, Nat.add_comm hi 1,
      List.range'_append_1, show hi + (n - hi) = n by omega]
  have early : (List.range' 1 lo).filter p = [] := by
    refine List.filter_eq_nil_iff.2 fun k hk h => ?_
    have mem := List.mem_range'_1.1 hk
    have := (spec k (by omega)).1 h
    omega
  have between : (List.range' (lo + 1) (hi - lo)).filter p = List.range' (lo + 1) (hi - lo) := by
    refine List.filter_eq_self.2 fun k hk => ?_
    have mem := List.mem_range'_1.1 hk
    exact (spec k (by omega)).2 (by omega)
  have late : (List.range' (hi + 1) (n - hi)).filter p = [] := by
    refine List.filter_eq_nil_iff.2 fun k hk h => ?_
    have mem := List.mem_range'_1.1 hk
    have := (spec k (by omega)).1 h
    omega
  rw [cut, List.filter_append, List.filter_append, early, between, late, List.append_nil, List.nil_append]

/-- The ticks before a moment between the `k`-th and the next one are the first `k`. -/
theorem Span.ticks_eq {period : Span} {time : Time} {k : Nat} (pos : 0 < period)
    (after : k * period < time) (before : time < (k + 1) * period) :
    Span.ticks period time = List.range' 1 k := by
  have few : k ≤ time := Nat.le_trans (Nat.le_mul_of_pos_right k pos) (Nat.le_of_lt after)
  refine filter_range' (Nat.zero_le k) few fun j hj => ?_
  rw [decide_eq_true_iff]
  constructor
  · intro h
    have := Nat.lt_of_mul_lt_mul_right (Nat.lt_trans h before)
    omega
  · rintro ⟨-, h⟩
    exact Nat.lt_of_le_of_lt (Nat.mul_le_mul_right period h) after

/-- What is picked from the first numbers, and the next one. -/
theorem filterMap_range'_succ {α : Type} (f : Nat → Option α) (n : Nat) :
    (List.range' 1 (n + 1)).filterMap f = (List.range' 1 n).filterMap f ++ (f (n + 1)).toList := by
  rw [List.range'_1_concat, List.filterMap_append, Nat.add_comm 1 n]
  cases h : f (n + 1) <;> simp [h]

namespace Schedule

variable {t : Schedule}

/-- The polls of a report are those between the number at the report before and the number now. -/
theorem window_succ (pos : 0 < t.poll) (m : Nat) :
    t.window (m + 1) = List.range' (m * t.report / t.poll + 1)
      ((m + 1) * t.report / t.poll - m * t.report / t.poll) := by
  have order : m * t.report / t.poll ≤ (m + 1) * t.report / t.poll :=
    Nat.div_le_div_right (Nat.mul_le_mul_right t.report (Nat.le_succ m))
  refine filter_range' order (Nat.div_le_self _ _) fun k _ => ?_
  rw [decide_eq_true_iff, Nat.add_sub_cancel, Nat.div_lt_iff_lt_mul pos, Nat.le_div_iff_mul_le pos]

/-- The polls handed on by the first reports are the first polls, none left out and none twice. -/
theorem flatten_windows (pos : 0 < t.poll) (sampler : Sampler) (m : Nat) :
    (((List.range' 1 m).filterMap (t.report? sampler)).map (·.2)).flatten =
      (List.range' 1 (m * t.report / t.poll)).map sampler.reading := by
  induction m with
  | zero => simp
  | succ m ih =>
    have order : m * t.report / t.poll ≤ (m + 1) * t.report / t.poll :=
      Nat.div_le_div_right (Nat.mul_le_mul_right t.report (Nat.le_succ m))
    have next : (((t.report? sampler (m + 1)).toList).map (·.2)).flatten =
        (t.window (m + 1)).map sampler.reading := by
      unfold report?
      split
      · rename_i empty
        rw [empty]
        rfl
      · exact List.append_nil _
    rw [filterMap_range'_succ, List.map_append, List.flatten_append, ih, next, window_succ pos,
      ← List.map_append, Nat.add_comm _ 1, List.range'_append_1,
      show m * t.report / t.poll + ((m + 1) * t.report / t.poll - m * t.report / t.poll) =
        (m + 1) * t.report / t.poll by omega]

end Schedule

end Telemetry
