/-
Runs: events one after the other, each of which is possible where it happens. What holds at first and is
kept by every event holds at the end (`LeadsTo.keeps`), and a measure that every event makes smaller
bounds their number (`LeadsTo.length_le`); so a system that uses something up by itself comes to rest
(`ComesTo.of_measure`).
-/

namespace Telemetry

/-- `b` comes of `a` by some events, one after the other. -/
def LeadsTo {σ ε : Type} (after? : σ → ε → Option σ) (a : σ) (events : List ε) (b : σ) : Prop :=
  events.foldlM after? a = some b

namespace LeadsTo

variable {σ ε : Type} {after? : σ → ε → Option σ} {a b c : σ} {e : ε} {events later : List ε}

theorem nil_iff : LeadsTo after? a [] b ↔ a = b := by
  unfold LeadsTo
  rw [List.foldlM_nil]
  exact Option.some_inj

theorem cons_iff : LeadsTo after? a (e :: events) c ↔ ∃ b, after? a e = some b ∧ LeadsTo after? b events c := by
  unfold LeadsTo
  rw [List.foldlM_cons]
  exact Option.bind_eq_some_iff

theorem append_iff : LeadsTo after? a (events ++ later) c ↔
    ∃ b, LeadsTo after? a events b ∧ LeadsTo after? b later c := by
  unfold LeadsTo
  rw [List.foldlM_append]
  exact Option.bind_eq_some_iff

theorem single (h : after? a e = some b) : LeadsTo after? a [e] b :=
  cons_iff.2 ⟨b, h, nil_iff.2 rfl⟩

theorem trans (h : LeadsTo after? a events b) (k : LeadsTo after? b later c) :
    LeadsTo after? a (events ++ later) c :=
  append_iff.2 ⟨b, h, k⟩

/-- What holds at first and is kept by every event holds at the end. -/
theorem keeps (Inv : σ → Prop) (kept : ∀ a e b, Inv a → after? a e = some b → Inv b)
    (run : LeadsTo after? a events b) (first : Inv a) : Inv b := by
  induction events generalizing a with
  | nil => exact nil_iff.1 run ▸ first
  | cons e events ih =>
    obtain ⟨c, here, rest⟩ := cons_iff.1 run
    exact ih rest (kept a e c first here)

/-- What is gone once it is gone was there before if it is there at the end. -/
theorem recalls (P : σ → Prop) (back : ∀ a e b, after? a e = some b → P b → P a)
    (run : LeadsTo after? a events b) (last : P b) : P a := by
  induction events generalizing a with
  | nil => exact nil_iff.1 run ▸ last
  | cons e events ih =>
    obtain ⟨c, here, rest⟩ := cons_iff.1 run
    exact back a e c here (ih rest)

/-- What no event changes as long as something holds that is kept by all of them, is the same at the end;
and what is gone once it is gone was there before if it is there at the end. -/
theorem stays {β : Type} (Inv P : σ → Prop) (view : σ → β)
    (still : ∀ a e b, Inv a → after? a e = some b → Inv b ∧ view b = view a ∧ (P b → P a))
    (run : LeadsTo after? a events b) (first : Inv a) : Inv b ∧ view b = view a ∧ (P b → P a) := by
  refine run.keeps (fun c => Inv c ∧ view c = view a ∧ (P c → P a)) ?_ ⟨first, rfl, id⟩
  rintro c e d ⟨inv, same, back⟩ step
  obtain ⟨inv', same', back'⟩ := still c e d inv step
  exact ⟨inv', same'.trans same, fun here => back (back' here)⟩

/-- Events that each use something up are no more than there is to be used up, as long as nothing gets
lost. -/
theorem length_le (Inv P : σ → Prop) (left : σ → Nat) (back : ∀ a e b, after? a e = some b → P b → P a)
    (uses : ∀ a e b, Inv a → after? a e = some b → P b → Inv b ∧ left b < left a)
    (run : LeadsTo after? a events b) (first : Inv a) (last : P b) :
    Inv b ∧ events.length + left b ≤ left a := by
  induction events generalizing a with
  | nil =>
    cases nil_iff.1 run
    exact ⟨first, by simp⟩
  | cons e events ih =>
    obtain ⟨c, here, rest⟩ := cons_iff.1 run
    obtain ⟨kept, less⟩ := uses a e c first here (rest.recalls P back last)
    obtain ⟨ends, bound⟩ := ih rest kept
    exact ⟨ends, by rw [List.length_cons]; omega⟩

/-- Events are a run of a part of the system if each of them is one, as long as something holds that is
kept by all of them. -/
theorem maps {τ δ : Type} {partAfter? : τ → δ → Option τ} (view : σ → τ) (Inv : σ → Prop)
    (step : ∀ a e b, Inv a → after? a e = some b →
      Inv b ∧ ∃ seen, LeadsTo partAfter? (view a) seen (view b))
    (run : LeadsTo after? a events b) (first : Inv a) : ∃ seen, LeadsTo partAfter? (view a) seen (view b) := by
  induction events generalizing a with
  | nil => exact ⟨[], nil_iff.2 (congrArg view (nil_iff.1 run))⟩
  | cons e events ih =>
    obtain ⟨c, here, rest⟩ := cons_iff.1 run
    obtain ⟨kept, seen, before⟩ := step a e c first here
    obtain ⟨seen', after⟩ := ih rest kept
    exact ⟨seen ++ seen', before.trans after⟩

/-- Events that can be followed to a state of some kind lead there. -/
theorem exists_of_any (after? : σ → ε → Option σ) (a : σ) (events : List ε) (p : σ → Bool)
    (h : (events.foldlM after? a).any p = true) :
    ∃ b, LeadsTo after? a events b ∧ p b = true :=
  (Option.any_eq_true _ _).1 h

/-- The same for events that go on from there. -/
theorem exists_of_any_later (after? : σ → ε → Option σ) (a : σ) (events later : List ε) (p : σ → σ → Bool)
    (h : ((events.foldlM after? a).any fun b => (later.foldlM after? b).any (p b)) = true) :
    ∃ b c, LeadsTo after? a events b ∧ LeadsTo after? b later c ∧ p b c = true := by
  obtain ⟨b, run, h⟩ := exists_of_any after? a events _ h
  obtain ⟨c, goesOn, h⟩ := exists_of_any after? b later _ h
  exact ⟨b, c, run, goesOn, h⟩

end LeadsTo

/-- However a system goes on by events of its own, it comes to a state of some kind: it can go on until
none of them can happen any more, and wherever that is, it is in such a state. -/
structure ComesTo {σ ε : Type} (after? : σ → ε → Option σ) (own : ε → Prop) (a : σ) (P : σ → Prop) : Prop where
  stops : ∃ events b, (∀ e ∈ events, own e) ∧ LeadsTo after? a events b ∧ ∀ e, own e → after? b e = none
  there : ∀ events b, (∀ e ∈ events, own e) → LeadsTo after? a events b → (∀ e, own e → after? b e = none) → P b

namespace ComesTo

variable {σ ε : Type} {after? : σ → ε → Option σ} {own : ε → Prop} {a : σ} {P : σ → Prop}

/-- A system whose own events use something up stops, and what they keep holds where it does. -/
theorem of_measure (Inv : σ → Prop) (left : σ → Nat)
    (uses : ∀ a e b, Inv a → own e → after? a e = some b → Inv b ∧ left b < left a)
    (rest : ∀ a, Inv a → (∀ e, own e → after? a e = none) → P a) (first : Inv a) : ComesTo after? own a P := by
  constructor
  · induction size : left a using Nat.strongRecOn generalizing a with
    | _ n ih =>
      by_cases goesOn : ∃ e b, own e ∧ after? a e = some b
      · obtain ⟨e, b, mine, step⟩ := goesOn
        obtain ⟨kept, less⟩ := uses a e b first mine step
        obtain ⟨events, c, all, run, still⟩ := ih (left b) (size ▸ less) kept rfl
        exact ⟨e :: events, c, List.forall_mem_cons.2 ⟨mine, all⟩, LeadsTo.cons_iff.2 ⟨b, step, run⟩, still⟩
      · refine ⟨[], a, List.forall_mem_nil _, LeadsTo.nil_iff.2 rfl, fun e mine => ?_⟩
        cases step : after? a e with
        | none => rfl
        | some b => exact absurd ⟨e, b, mine, step⟩ goesOn
  · intro events b all run still
    refine rest b ?_ still
    induction events generalizing a with
    | nil => exact LeadsTo.nil_iff.1 run ▸ first
    | cons e events ih =>
      obtain ⟨c, step, run⟩ := LeadsTo.cons_iff.1 run
      obtain ⟨mine, all⟩ := List.forall_mem_cons.1 all
      exact ih (uses a e c first mine step).1 all run

end ComesTo

end Telemetry
