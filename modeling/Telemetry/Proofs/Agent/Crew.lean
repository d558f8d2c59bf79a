/-
The workers of all drains of an agent, each with its seat. A change moves one worker and leaves the
others as they are, or it moves none and at most adds workers that have done nothing yet
(`crew_of_change`): what is counted or gathered over the workers needs to be looked after for one
worker only.
-/
import Telemetry.Proofs.Agent.History
import Telemetry.Proofs.Around
import Telemetry.Proofs.Pool.Move

namespace Telemetry

open Pool (Drain Scene Worker)

/-- The workers of drain number `number` with their seats. -/
def Pool.Drain.crew (number : Nat) (d : Drain) : List (Seat × Worker) :=
  d.workers.mapIdx fun i w => (⟨number, i⟩, w)

namespace Agent

/-- The workers of all drains with their seats. -/
def crew (a : Agent) : List (Seat × Worker) := (a.drains.mapIdx Drain.crew).flatten

variable {s : AgentSettings} {a b : Agent}

theorem crew_startDrain (s : AgentSettings) (a : Agent) (stages : Stage.Pipeline) :
    (a.startDrain s stages).crew = a.crew ++ (Drain.ofStages s.workers stages).crew a.drains.length := by
  unfold crew startDrain
  rw [mapIdx_append_cons]
  simp

/-- Workers that have done nothing yet. -/
theorem fresh_of_mem_crew {n : Nat} {stages : Stage.Pipeline} {x : Seat × Worker}
    (h : x ∈ (Drain.ofStages s.workers stages).crew n) : x.2 = {} := by
  obtain ⟨i, hi, rfl⟩ := List.mem_mapIdx.1 h
  simp [Drain.ofStages]

theorem mem_crew {x : Seat × Worker} :
    x ∈ a.crew ↔ ∃ d, a.drains[x.1.drain]? = some d ∧ d.workers[x.1.worker]? = some x.2 := by
  obtain ⟨⟨n, i⟩, w⟩ := x
  simp only [crew, List.mem_flatten, List.mem_mapIdx, Drain.crew]
  constructor
  · rintro ⟨_, ⟨m, hm, rfl⟩, hx⟩
    obtain ⟨j, hj, heq⟩ := List.mem_mapIdx.1 hx
    cases heq
    exact ⟨_, List.getElem?_eq_getElem hm, List.getElem?_eq_getElem hj⟩
  · rintro ⟨d, hd, hw⟩
    obtain ⟨hn, rfl⟩ := List.getElem?_eq_some_iff.1 hd
    obtain ⟨hi, rfl⟩ := List.getElem?_eq_some_iff.1 hw
    exact ⟨_, ⟨n, hn, rfl⟩, List.mem_mapIdx.2 ⟨i, hi, rfl⟩⟩

/-- A worker in the crew with what stands around it, which a step of that worker leaves as it is. -/
theorem crew_around {n i : Nat} {d : Drain} {w : Worker} (found : a.drains[n]? = some d)
    (worker : d.workers[i]? = some w) :
    ∃ l₁ l₂, a.crew = l₁ ++ (⟨n, i⟩, w) :: l₂ ∧ ∀ (next : Scene) (shared : Pool.Shared),
      { a with shared, drains := a.drains.set n (d.withScene i next) : Agent }.crew =
        l₁ ++ (⟨n, i⟩, next.worker) :: l₂ := by
  obtain ⟨d₁, d₂, hd, rfl, hset⟩ := split_at_getElem? found
  obtain ⟨w₁, w₂, hw, rfl, hwset⟩ := split_at_getElem? worker
  -- the drains before, the workers before in the same drain, and likewise behind
  refine ⟨(d₁.mapIdx Drain.crew).flatten ++ w₁.mapIdx fun i w => (⟨d₁.length, i⟩, w),
    (w₂.mapIdx fun i w => (⟨d₁.length, i + (w₁.length + 1)⟩, w)) ++
      (d₂.mapIdx fun i => Drain.crew (i + (d₁.length + 1))).flatten, ?_, fun next shared => ?_⟩
  · unfold crew
    rw [hd, mapIdx_append_cons]
    simp only [Drain.crew, hw, mapIdx_append_cons, List.flatten_append, List.flatten_cons]
    simp
  · unfold crew
    simp only [hset, Drain.withScene, hwset]
    rw [mapIdx_append_cons]
    simp only [Drain.crew, mapIdx_append_cons, List.flatten_append, List.flatten_cons]
    simp

/-- A drain whose workers stay the same leaves the crew the same. -/
theorem crew_set {n : Nat} {d d' : Drain} (found : a.drains[n]? = some d)
    (same : d'.workers = d.workers) : { a with drains := a.drains.set n d' : Agent }.crew = a.crew := by
  obtain ⟨d₁, d₂, hd, rfl, hset⟩ := split_at_getElem? found
  unfold crew
  simp only [hset]
  rw [hd, mapIdx_append_cons, mapIdx_append_cons]
  simp only [Drain.crew, same]

/-- What a change does to the crew: one worker moves, or nobody does and some are new. -/
inductive CrewChange (s : AgentSettings) (a b : Agent) : Prop
  | moved {seat : Seat} {old next : Scene} {l₁ l₂ : List (Seat × Worker)}
      (before : a.crew = l₁ ++ (seat, old.worker) :: l₂)
      (after : b.crew = l₁ ++ (seat, next.worker) :: l₂) (here : old.shared = a.shared)
      (there : b.shared = next.shared) (move : old.Move s.delivery seat next)
  | joined {fresh : List (Seat × Worker)} (crew : b.crew = a.crew ++ fresh)
      (idle : ∀ x ∈ fresh, x.2 = {}) (permits : b.shared.permits = a.shared.permits)
      (journal : b.shared.journal = a.shared.journal ∨
        (∃ time snapshot, b.shared.journal = .polled time snapshot :: a.shared.journal) ∨
        ∃ time snapshots, b.shared.journal = .reported time snapshots :: a.shared.journal)

theorem crew_of_change {e : Event} (h : Change s a e b) : CrewChange s a b := by
  have same : ∀ {b : Agent}, b.crew = a.crew → b.crew = a.crew ++ [] := fun h => by rw [h, List.append_nil]
  cases h with
  | polled collects course => exact .joined (same rfl) (by simp) rfl (.inr (.inl ⟨_, _, rfl⟩))
  | reported collects course =>
    exact .joined (crew_startDrain s { a with pending := [] } _) (fun x hx => fresh_of_mem_crew hx) rfl
      (.inr (.inr ⟨_, _, rfl⟩))
  | turned collects course => exact .joined (same rfl) (by simp) rfl (.inl rfl)
  | waited time => exact .joined (same rfl) (by simp) rfl (.inl rfl)
  | cancelled => exact .joined (same rfl) (by simp) rfl (.inl rfl)
  | discarded => exact .joined (same rfl) (by simp) rfl (.inl rfl)
  | opened stages =>
    exact .joined (crew_startDrain s a stages) (fun x hx => fresh_of_mem_crew hx) rfl (.inl rfl)
  | fed found step => exact .joined (same rfl) (by simp) rfl (.inl rfl)
  | staged found step => exact .joined (same (crew_set found rfl)) (by simp) rfl (.inl rfl)
  | worked found worker step =>
    obtain ⟨l₁, l₂, before, after⟩ := crew_around found worker
    exact .moved before (after _ _) rfl rfl (Scene.move_of_step step)
  | returned found first ends => exact .joined (same (crew_set found rfl)) (by simp) rfl (.inl rfl)

end Agent

end Telemetry
