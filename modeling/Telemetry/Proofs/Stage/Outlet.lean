/-
What goes into the channels of a stage and what comes out of them. The items that a step has added to a
channel, and those that it has taken from it, are read off the channel before and after (`Channel.added`,
`Channel.taken`). An output with its history (`Outlet`) holds what was put into it and not received yet,
and never more than a channel holds (`Outlet.Sound`); so when nothing is put into it any more, what it
holds is all that can still be received (`Outlet.Sound.cutOff`).
-/
import Telemetry.Proofs.Stage.Move

namespace Telemetry

/-! ## Items that come and go -/

namespace Channel

variable {α : Type} {c d : Channel α} {a : α} {rest : List α}

/-- The items that were put into a channel between two of its states, when none was taken. -/
def added (before after : Channel α) : List α := after.items.drop before.items.length

/-- The items that were taken from a channel between two of its states, when none was put into it. What
is given up with the receiver was not taken. -/
def taken (before after : Channel α) : List α :=
  if after.dropped then [] else before.items.take (before.items.length - after.items.length)

theorem added_of_same (same : d.items = c.items) : c.added d = [] := by
  unfold added
  rw [same, List.drop_length]

theorem added_self (c : Channel α) : c.added c = [] := added_of_same rfl

theorem added_close (c : Channel α) : c.added c.close = [] := added_of_same rfl

theorem added_push (c : Channel α) (a : α) : c.added (c.push a) = [a] := List.drop_left

theorem taken_of_same (same : d.items = c.items) : c.taken d = [] := by
  unfold taken
  rw [same, Nat.sub_self, List.take_zero, ite_self]

theorem taken_drop (c : Channel α) : c.taken c.drop = [] := if_pos rfl

theorem taken_rest (items : c.items = a :: rest) (listens : c.dropped = false) :
    c.taken { c with items := rest } = [a] := by
  unfold taken
  rw [if_neg (by simp [listens]), items]
  simp

/-- What a receiver is told when no item is left. -/
theorem receive_of_empty (items : c.items = []) (closed : c.closed = true) : c.receive.1 = .finished := by
  unfold receive
  rw [items]
  exact if_pos closed

end Channel

namespace Stage

/-! ## Items by the input they come from -/

/-- Items of one input. -/
def tagged {α : Type} (i : Nat) (items : List α) : List (Nat × α) := items.map (i, ·)

/-- The items of input `i`, in their order. -/
def ofInput {α : Type} (i : Nat) (log : List (Nat × α)) : List α := (log.filter (·.1 == i)).map (·.2)

section Inputs

variable {α : Type} {i j : Nat} {log : List (Nat × α)} {items : List α}

theorem ofInput_append_self : ofInput i (log ++ tagged i items) = ofInput i log ++ items := by
  simp [ofInput, tagged, List.filter_map, Function.comp_def]

theorem ofInput_append_other (other : i ≠ j) : ofInput j (log ++ tagged i items) = ofInput j log := by
  simp [ofInput, tagged, other]

theorem map_snd_append_tagged : (log ++ tagged i items).map (·.2) = log.map (·.2) ++ items := by
  simp [tagged, Function.comp_def]

end Inputs

/-! ## Outputs -/

/-- The output of a stage: the channel, what was put into it, and what was received of it. -/
structure Outlet (α : Type) where
  channel : Channel α
  passed : List α
  received : List α

namespace Outlet

variable {α : Type} {o p : Outlet α}

/-- What was put into an output was received or is still there, as long as its receiver is. -/
structure Sound (o : Outlet α) : Prop where
  kept : o.channel.dropped = false → o.received ++ o.channel.items = o.passed
  begins : o.received <+: o.passed
  gone : o.channel.dropped = true → o.channel.items = []
  few : o.channel.items.length ≤ Channel.capacity

theorem sound_empty : ({ channel := {}, passed := [], received := [] } : Outlet α).Sound :=
  ⟨fun _ => rfl, List.prefix_rfl, fun _ => rfl, Nat.zero_le _⟩

/-- An output whose sender does nothing, or goes. -/
theorem Sound.of_same (h : o.Sound) {channel : Channel α} (items : channel.items = o.channel.items)
    (dropped : channel.dropped = o.channel.dropped) : ({ o with channel } : Outlet α).Sound := by
  obtain ⟨kept, begins, gone, few⟩ := h
  exact ⟨fun here => items ▸ kept (dropped ▸ here), begins, fun left => items ▸ gone (dropped ▸ left), items ▸ few⟩

theorem Sound.push (h : o.Sound) (room : o.channel.hasRoom = true) (listens : o.channel.dropped = false) (a : α) :
    ({ o with channel := o.channel.push a, passed := o.passed ++ [a] } : Outlet α).Sound where
  kept _ := by
    rw [← h.kept listens, List.append_assoc]
    rfl
  begins := h.begins.trans (List.prefix_append _ _)
  gone left := by
    rw [show o.channel.dropped = true from left] at listens
    cases listens
  few := by
    have few : o.channel.items.length < Channel.capacity := of_decide_eq_true room
    show (o.channel.items ++ [a]).length ≤ _
    rw [List.length_append]
    exact few

/-- The output of a task that does nothing to it, closes it, or puts one item there. -/
theorem Sound.step (h : o.Sound) {channel : Channel α}
    (made : (channel.items = o.channel.items ∧ channel.dropped = o.channel.dropped) ∨
      ∃ a, o.channel.hasRoom = true ∧ o.channel.dropped = false ∧ channel = o.channel.push a) :
    ({ o with channel, passed := o.passed ++ o.channel.added channel } : Outlet α).Sound := by
  rcases made with ⟨same, dropped⟩ | ⟨a, room, listens, rfl⟩
  · rw [Channel.added_of_same same, List.append_nil]
    exact h.of_same same dropped
  · rw [Channel.added_push]
    exact h.push room listens a

/-- An item can be received only while the receiver is there. -/
theorem Sound.listens (h : o.Sound) {a : α} {rest : List α} (items : o.channel.items = a :: rest) :
    o.channel.dropped = false := by
  cases left : o.channel.dropped with
  | false => rfl
  | true =>
    rw [h.gone left] at items
    cases items

theorem Sound.receive (h : o.Sound) {a : α} {rest : List α} (items : o.channel.items = a :: rest) :
    ({ o with channel := { o.channel with items := rest }, received := o.received ++ [a] } : Outlet α).Sound := by
  have listens := h.listens items
  have kept := h.kept listens
  rw [items, List.append_cons] at kept
  refine ⟨fun _ => kept, ⟨rest, kept⟩, fun left => ?_, ?_⟩
  · rw [show o.channel.dropped = true from left] at listens
    cases listens
  · have few := h.few
    rw [items, List.length_cons] at few
    exact Nat.le_of_succ_le few

theorem Sound.drop (h : o.Sound) : ({ o with channel := o.channel.drop } : Outlet α).Sound :=
  ⟨fun here => (Bool.noConfusion here), h.begins, fun _ => rfl, Nat.zero_le _⟩

/-- What was put into an output and not received is no more than a channel holds, also when the receiver
has gone and left it there. -/
def Near (o : Outlet α) : Prop := ∃ ahead, o.passed = o.received ++ ahead ∧ ahead.length ≤ Channel.capacity

theorem Sound.near (h : o.Sound) (listens : o.channel.dropped = false) : o.Near :=
  ⟨o.channel.items, (h.kept listens).symm, h.few⟩

theorem Near.step (h : o.Near) (sound : o.Sound) {channel : Channel α}
    (made : (channel.items = o.channel.items ∧ channel.dropped = o.channel.dropped) ∨
      ∃ a, o.channel.hasRoom = true ∧ o.channel.dropped = false ∧ channel = o.channel.push a) :
    ({ o with channel, passed := o.passed ++ o.channel.added channel } : Outlet α).Near := by
  rcases made with ⟨same, -⟩ | ⟨a, room, listens, rfl⟩
  · rw [Channel.added_of_same same, List.append_nil]
    exact h
  · rw [Channel.added_push]
    exact (sound.push room listens a).near listens

theorem Near.length_le (h : o.Near) : o.passed.length ≤ o.received.length + Channel.capacity := by
  obtain ⟨ahead, passed, few⟩ := h
  rw [passed, List.length_append]
  exact Nat.add_le_add_left few _

/-- Nothing comes into an output any more: what can still be received is what it holds. -/
structure CutOff (before after : Outlet α) : Prop where
  passed : after.passed = before.passed
  receivable : after.channel.dropped = false →
    after.received ++ after.channel.items = before.received ++ before.channel.items
  few : before.channel.items.length ≤ Channel.capacity

theorem Sound.cutOff (h : o.Sound) (k : p.Sound) (passed : p.passed = o.passed)
    (back : p.channel.dropped = false → o.channel.dropped = false) : o.CutOff p where
  passed := passed
  receivable here := by rw [k.kept here, h.kept (back here), passed]
  few := h.few

end Outlet

end Stage

end Telemetry
