/-
What the operations on permits do to two figures: the permits that nobody delivers with, and the
seats that wait for one. Giving back adds one to the first, taking and collecting take one off it,
and nobody who waits is lost or counted twice.
-/
import Telemetry.Pool.Permits
import Mathlib.Data.List.Perm.Basic

namespace Telemetry.Pool.Permits

/-- The permits that nobody delivers with: free, or given to someone who has not taken them up. -/
def unused (p : Permits) : Nat := p.free + p.granted.length

/-- The seats that wait for a permit, those included to whom one was given. -/
def waiters (p : Permits) : List Seat := p.row ++ p.granted

variable {p q : Permits} {s : Seat}

theorem unused_release (p : Permits) : p.release.unused = p.unused + 1 := by
  unfold release unused
  split
  · simp only; omega
  · simp only [List.length_append, List.length_singleton]; omega

theorem waiters_release (p : Permits) : p.release.waiters.Perm p.waiters := by
  unfold release waiters
  split
  · exact .refl _
  · rename_i s rest hr
    simp only [hr, List.cons_append]
    rw [← List.append_assoc]
    exact List.perm_append_singleton _ _

theorem unused_of_take? (h : p.take? = some q) : q.unused + 1 = p.unused := by
  unfold take? at h
  split at h
  · cases h
  · cases h
    simp only [unused]; omega

theorem waiters_of_take? (h : p.take? = some q) : q.waiters = p.waiters := by
  unfold take? at h
  split at h
  · cases h
  · cases h; rfl

theorem unused_enqueue (p : Permits) (s : Seat) : (p.enqueue s).unused = p.unused := rfl

theorem waiters_enqueue (p : Permits) (s : Seat) : (p.enqueue s).waiters.Perm (s :: p.waiters) := by
  unfold enqueue waiters
  rw [List.append_assoc]
  exact List.perm_middle

theorem mem_granted_of_collect? (h : p.collect? s = some q) :
    s ∈ p.granted ∧ q = { p with granted := p.granted.erase s } := by
  unfold collect? at h
  split at h
  · cases h; exact ⟨‹_›, rfl⟩
  · cases h

theorem unused_of_collect? (h : p.collect? s = some q) : q.unused + 1 = p.unused := by
  obtain ⟨hm, rfl⟩ := mem_granted_of_collect? h
  have := List.length_erase_add_one hm
  simp only [unused]; omega

theorem waiters_of_collect? (h : p.collect? s = some q) : p.waiters.Perm (s :: q.waiters) := by
  obtain ⟨hm, rfl⟩ := mem_granted_of_collect? h
  exact ((List.perm_cons_erase hm).append_left _).trans List.perm_middle

theorem unused_withdraw (p : Permits) (s : Seat) : (p.withdraw s).unused = p.unused := by
  unfold withdraw
  split
  · rename_i q h
    rw [unused_release, unused_of_collect? h]
  · rfl

/-- Whoever waits no longer is gone from those who wait, and nobody else is. -/
theorem waiters_withdraw (h : s ∈ p.waiters) : p.waiters.Perm (s :: (p.withdraw s).waiters) := by
  unfold withdraw
  split
  · rename_i q hq
    exact (waiters_of_collect? hq).trans ((waiters_release q).symm.cons s)
  · rename_i hq
    have hrow : s ∈ p.row := by
      rcases List.mem_append.1 h with hm | hm
      · exact hm
      · simp [collect?, hm] at hq
    exact (List.perm_cons_erase hrow).append_right _

end Telemetry.Pool.Permits
