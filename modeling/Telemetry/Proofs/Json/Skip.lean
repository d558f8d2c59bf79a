/-
Passing over a value: the reader that only checks the grammar stops right behind it, whatever is
still open around it and whatever follows.
-/
import Telemetry.Proofs.Json.Grammar
import Telemetry.Json.Skip

namespace Telemetry.Json

namespace Skip

variable {stack outer : List Frame} {rest : List Token}

theorem run_step {spot next : Spot} {t : Token} {ts : List Token}
    (hopen : ¬(spot = .after ∧ stack = [])) (h : step spot stack t = some (next, outer)) :
    run spot stack (t :: ts) = run next outer ts := by
  rw [run, if_neg hopen, h]

/-- A value is passed over by the tokens it is made of. -/
def Passes (v : List Token) : Prop :=
  ∀ stack rest, run .value stack (v ++ rest) = run .after stack rest

/-- An item, at the beginning of a list or behind a comma. -/
theorem run_item {v : List Token} (hv : IsValue v) (h : Passes v) {spot : Spot}
    (hspot : spot = .firstItem ∨ spot = .value) :
    run spot (.list :: outer) (v ++ rest) = run .after (.list :: outer) rest := by
  refine Eq.trans ?_ (h _ rest)
  rcases hspot with rfl | rfl
  · obtain ⟨t, ts, rfl, hclose⟩ := hv.first
    have hstep : step .firstItem (.list :: outer) t = step .value (.list :: outer) t := by
      cases t with
      | listClose => exact absurd rfl hclose
      | _ => rfl
    simp only [List.cons_append, run, reduceCtorEq, false_and, if_false, hstep]
  · rfl

theorem run_items {v : List Token} {vs : List (List Token)} (hv : ∀ w ∈ v :: vs, IsValue w)
    (h : ∀ w ∈ v :: vs, Passes w) {spot : Spot} (hspot : spot = .firstItem ∨ spot = .value) :
    run spot (.list :: outer) ([.comma].intercalate (v :: vs) ++ .listClose :: rest) =
      run .after outer rest := by
  induction vs generalizing v spot with
  | nil =>
    rw [List.intercalate_singleton, run_item (hv v List.mem_cons_self) (h v List.mem_cons_self) hspot]
    exact run_step (by simp) rfl
  | cons w vs ih =>
    rw [List.intercalate_cons_cons, List.append_assoc, List.append_assoc,
      run_item (hv v List.mem_cons_self) (h v List.mem_cons_self) hspot]
    refine (run_step (by simp) rfl).trans ?_
    exact ih (fun u hu => hv u (List.mem_cons_of_mem _ hu))
      (fun u hu => h u (List.mem_cons_of_mem _ hu)) (Or.inr rfl)

/-- The key and the value of a member, at the beginning of a map or behind a comma. -/
theorem run_member {m : Member} (h : Passes m.value) {spot : Spot}
    (hspot : spot = .firstKey ∨ spot = .key) :
    run spot (.map :: outer) (m.tokens ++ rest) = run .after (.map :: outer) rest := by
  have hkey : step spot (.map :: outer) (.text m.key) = some (.colon, .map :: outer) := by
    rcases hspot with rfl | rfl <;> rfl
  unfold Member.tokens
  rw [List.cons_append, List.cons_append, run_step (by rcases hspot with rfl | rfl <;> simp) hkey]
  refine (run_step (by simp) rfl).trans ?_
  exact h _ _

theorem run_members {m : Member} {ms : List Member} (h : ∀ n ∈ m :: ms, Passes n.value) {spot : Spot}
    (hspot : spot = .firstKey ∨ spot = .key) :
    run spot (.map :: outer)
        ([.comma].intercalate ((m :: ms).map Member.tokens) ++ .mapClose :: rest) =
      run .after outer rest := by
  induction ms generalizing m spot with
  | nil =>
    rw [List.map_singleton, List.intercalate_singleton, run_member (h m List.mem_cons_self) hspot]
    exact run_step (by simp) rfl
  | cons n ms ih =>
    rw [List.map_cons, List.map_cons, List.intercalate_cons_cons, List.append_assoc,
      List.append_assoc, run_member (h m List.mem_cons_self) hspot]
    refine (run_step (by simp) rfl).trans ?_
    exact ih (fun k hk => h k (List.mem_cons_of_mem _ hk)) (Or.inr rfl)

theorem passes {v : List Token} (h : IsValue v) : Passes v := by
  induction h with
  | null => exact fun stack rest => run_step (by simp) rfl
  | bool b => exact fun stack rest => run_step (by simp) rfl
  | number n => exact fun stack rest => run_step (by simp) rfl
  | text raw => exact fun stack rest => run_step (by simp) rfl
  | @list vs items ih =>
    intro stack rest
    unfold listOf
    rw [List.cons_append, List.append_assoc]
    refine (run_step (by simp) rfl).trans ?_
    cases vs with
    | nil => exact run_step (by simp) rfl
    | cons v vs => exact run_items items ih (Or.inl rfl)
  | @map ms members ih =>
    intro stack rest
    unfold mapOf
    rw [List.cons_append, List.append_assoc]
    refine (run_step (by simp) rfl).trans ?_
    cases ms with
    | nil => exact run_step (by simp) rfl
    | cons m ms => exact run_members ih (Or.inl rfl)

/-- Passing over a value stops right behind it. -/
theorem value?_append {v : List Token} (h : IsValue v) (rest : List Token) :
    value? (v ++ rest) = some rest := by
  refine (passes h [] rest).trans ?_
  cases rest <;> simp [run]

end Skip

end Telemetry.Json
