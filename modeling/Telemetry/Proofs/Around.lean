/-
A list around one of its items: what stands before it and behind it, and what becomes of the list
when the item is exchanged. Steps of one task among many are steps at one place of a list, so the
invariants of the whole are proved from these few equations.
-/
import Mathlib.Algebra.Ring.Nat
import Mathlib.Data.List.Forall2

namespace Telemetry

variable {α β : Type}

/-- An item of a list with what stands around it; exchanging the item leaves that as it is. -/
theorem split_at_getElem? {l : List α} {i : Nat} {x : α} (h : l[i]? = some x) :
    ∃ l₁ l₂, l = l₁ ++ x :: l₂ ∧ l₁.length = i ∧ ∀ y, l.set i y = l₁ ++ y :: l₂ := by
  obtain ⟨hi, rfl⟩ := List.getElem?_eq_some_iff.1 h
  refine ⟨l.take i, l.drop (i + 1), ?_, by simp; omega, fun y => ?_⟩
  · rw [List.getElem_cons_drop, List.take_append_drop]
  · rw [List.set_eq_take_append_cons_drop, if_pos hi]

theorem mapIdx_append_cons (f : Nat → α → β) (l₁ l₂ : List α) (x : α) :
    (l₁ ++ x :: l₂).mapIdx f =
      l₁.mapIdx f ++ f l₁.length x :: l₂.mapIdx (fun i => f (i + (l₁.length + 1))) := by
  rw [List.mapIdx_append, List.mapIdx_cons]
  simp only [Nat.zero_add, Nat.add_assoc, Nat.add_comm 1]

/-- What is gathered from the items of a list stays when an item is exchanged for one that gives the
same. -/
theorem map_set_of_getElem? {f : α → β} {l : List α} {i : Nat} {x y : α}
    (found : l[i]? = some x) (same : f y = f x) : (l.set i y).map f = l.map f := by
  obtain ⟨l₁, l₂, rfl, rfl, set⟩ := split_at_getElem? found
  rw [set, List.map_append, List.map_append, List.map_cons, List.map_cons, same]

/-- A sum over the items of a list when one of them is exchanged. -/
theorem sum_map_set {f : α → Nat} {l : List α} {i : Nat} {x y : α} (found : l[i]? = some x) :
    ((l.set i y).map f).sum + f x = (l.map f).sum + f y := by
  obtain ⟨l₁, l₂, rfl, rfl, set⟩ := split_at_getElem? found
  simp only [set, List.map_append, List.map_cons, List.sum_append, List.sum_cons]
  omega

/-- What holds of all items of a list holds when one of them is exchanged for another one of which it holds. -/
theorem forall_mem_set {p : α → Prop} {l : List α} {i : Nat} {y : α} (others : ∀ x ∈ l, p x) (here : p y) :
    ∀ x ∈ l.set i y, p x := by
  intro x hx
  rcases List.mem_or_eq_of_mem_set hx with hx | rfl
  · exact others x hx
  · exact here

/-- A list beside the same list with one of its items exchanged for a related one. -/
theorem forall₂_set {R : α → α → Prop} {l : List α} {i : Nat} {x y : α} (same : ∀ z, R z z)
    (found : l[i]? = some x) (related : R x y) : List.Forall₂ R l (l.set i y) := by
  obtain ⟨l₁, l₂, rfl, rfl, set⟩ := split_at_getElem? found
  have every : ∀ m : List α, List.Forall₂ R m m := fun m => List.forall₂_same.2 fun z _ => same z
  rw [set]
  exact List.rel_append (every l₁) (.cons related (every l₂))

/-- Lists that are related item by item, by a relation that can be followed on. -/
theorem forall₂_trans {R : α → α → Prop} (follow : ∀ x y z, R x y → R y z → R x z) :
    ∀ {l m n : List α}, List.Forall₂ R l m → List.Forall₂ R m n → List.Forall₂ R l n
  | _, _, _, .nil, .nil => .nil
  | _, _, _, .cons h hs, .cons k ks => .cons (follow _ _ _ h k) (forall₂_trans follow hs ks)

end Telemetry
