/-
Passing over a value that nobody asks for. Only its grammar is checked, at any depth: the lists and
maps that are still open are kept on a stack, and every token moves the reader on.
-/
import Telemetry.Json.Token

namespace Telemetry.Json.Skip

/-- A list or a map that is still open. -/
inductive Frame where
  | list
  | map
deriving DecidableEq, Repr

/-- What the grammar allows next. -/
inductive Spot where
  | value
  | firstItem
  | firstKey
  | key
  | colon
  | after
deriving DecidableEq, Repr

/-- Where the first token of a value leads. -/
def enter (stack : List Frame) : Token → Option (Spot × List Frame)
  | .null | .bool _ | .number _ | .text _ => some (.after, stack)
  | .listOpen => some (.firstItem, .list :: stack)
  | .mapOpen => some (.firstKey, .map :: stack)
  | _ => none

/-- Where a token leads. -/
def step (spot : Spot) (stack : List Frame) (t : Token) : Option (Spot × List Frame) :=
  match spot, stack, t with
  | .value, _, t => enter stack t
  | .firstItem, .list :: outer, .listClose => some (.after, outer)
  | .firstItem, _, t => enter stack t
  | .firstKey, .map :: outer, .mapClose => some (.after, outer)
  | .firstKey, _, .text _ => some (.colon, stack)
  | .key, _, .text _ => some (.colon, stack)
  | .colon, _, .colon => some (.value, stack)
  | .after, .list :: _, .comma => some (.value, stack)
  | .after, .list :: outer, .listClose => some (.after, outer)
  | .after, .map :: _, .comma => some (.key, stack)
  | .after, .map :: outer, .mapClose => some (.after, outer)
  | _, _, _ => none

/-- Goes on until nothing is open, and gives the tokens behind. -/
def run (spot : Spot) (stack : List Frame) : List Token → Option (List Token)
  | [] => if spot = .after ∧ stack = [] then some [] else none
  | t :: ts =>
    if spot = .after ∧ stack = [] then some (t :: ts)
    else match step spot stack t with
      | some (spot, stack) => run spot stack ts
      | none => none

/-- The tokens behind the value at the beginning of a row. -/
def value? (ts : List Token) : Option (List Token) := run .value [] ts

theorem length_of_run {spot : Spot} {stack : List Frame} {ts rest : List Token}
    (h : run spot stack ts = some rest) : rest.length ≤ ts.length := by
  induction ts generalizing spot stack with
  | nil => simp only [run] at h; split at h <;> simp_all
  | cons t ts ih =>
    simp only [run] at h
    split at h
    · simp_all
    · split at h
      · have := ih h; simp only [List.length_cons]; omega
      · simp at h

/-- A value is made of at least one token. -/
theorem length_of_value? {ts rest : List Token} (h : value? ts = some rest) :
    rest.length < ts.length := by
  cases ts with
  | nil => simp [value?, run] at h
  | cons t ts =>
    simp only [value?, run] at h
    split at h
    · simp_all
    · split at h
      · have := length_of_run h; simp only [List.length_cons]; omega
      · simp at h

end Telemetry.Json.Skip
