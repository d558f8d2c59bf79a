/-
How the batcher cuts a stream of records into batches: every batch is full but the last one, which is
not empty (`Pipeline.Move.cut`). So there is one way to cut some records (`IsCut.eq_chunks`), and the number
of batches is the number of records divided by the size of a batch, rounded up.
-/
import Telemetry.Proofs.Stage.Flow

namespace Telemetry.Stage

/-- The number of batches that so many records are cut into. -/
def Batcher.count (size records : Nat) : Nat := (records + effective size - 1) / effective size

theorem Batcher.effective_pos (size : Nat) : 0 < effective size := Nat.le_max_right size 1

/-- Records in full batches, with the rest in a smaller one. -/
def Batcher.chunks (size : Nat) : List Record → List Batch
  | [] => []
  | r :: rest => (r :: rest.take (effective size - 1)) :: chunks size (rest.drop (effective size - 1))
termination_by records => records.length
decreasing_by
  rw [List.length_drop, List.length_cons]
  omega

namespace Batcher

variable {size : Nat} {b : Batch} {rest : List Record}

/-- A full batch comes first. -/
theorem chunks_append (full : b.length = effective size) : chunks size (b ++ rest) = b :: chunks size rest := by
  cases b with
  | nil => exact absurd full.symm (Nat.ne_of_gt (effective_pos size))
  | cons r b =>
    have length : b.length = effective size - 1 := by rw [← full]; rfl
    rw [List.cons_append, chunks, ← length, List.take_left, List.drop_left]

/-- Fewer records than a full batch has are in one batch. -/
theorem chunks_of_short (nonempty : 0 < b.length) (few : b.length < effective size) : chunks size b = [b] := by
  cases b with
  | nil => cases nonempty
  | cons r b =>
    have few : b.length ≤ effective size - 1 := Nat.le_sub_one_of_lt (Nat.lt_of_succ_lt few)
    rw [chunks, List.take_of_length_le few, List.drop_of_length_le few, chunks]

end Batcher

/-- Full batches, with a smaller one at the end perhaps. -/
structure IsCut (size : Nat) (batches full : List Batch) (short : Option Batch) : Prop where
  parts : batches = full ++ short.toList
  full : ∀ b ∈ full, b.length = Batcher.effective size
  short : ∀ b, short = some b → 0 < b.length ∧ b.length < Batcher.effective size

namespace IsCut

variable {size : Nat} {batches full : List Batch} {short : Option Batch}

/-- No batch is empty. -/
theorem ne_nil (h : IsCut size batches full short) {b : Batch} (mem : b ∈ batches) : b ≠ [] := by
  rw [h.parts] at mem
  have pos : 0 < b.length := by
    rcases List.mem_append.1 mem with mem | mem
    · rw [h.full b mem]
      exact Batcher.effective_pos size
    · exact (h.short b (Option.mem_toList.1 mem)).1
  exact List.length_pos_iff.1 pos

/-- At most one batch is not full. -/
theorem countP_le (h : IsCut size batches full short) :
    batches.countP (fun b => b.length != Batcher.effective size) ≤ 1 := by
  have allFull : full.countP (fun b => b.length != Batcher.effective size) = 0 := by
    refine List.countP_eq_zero.2 fun b mem => ?_
    rw [h.full b mem, bne_self_eq_false]
    exact Bool.false_ne_true
  rw [h.parts, List.countP_append, allFull, Nat.zero_add]
  refine Nat.le_trans List.countP_le_length ?_
  cases short with
  | none => exact Nat.zero_le 1
  | some b => exact Nat.le_refl 1

theorem length_flatten_full (h : ∀ b ∈ full, b.length = Batcher.effective size) :
    full.flatten.length = full.length * Batcher.effective size := by
  induction full with
  | nil => rw [List.length_nil, Nat.zero_mul]; rfl
  | cons b full ih =>
    rw [List.flatten_cons, List.length_append, h b List.mem_cons_self,
      ih fun c mem => h c (List.mem_cons_of_mem _ mem), List.length_cons, Nat.succ_mul, Nat.add_comm]

/-- As many batches as the records need, and no more. -/
theorem length_eq (h : IsCut size batches full short) :
    batches.length = Batcher.count size batches.flatten.length := by
  have pos := Batcher.effective_pos size
  have records : batches.flatten.length =
      full.length * Batcher.effective size + short.toList.flatten.length := by
    rw [h.parts, List.flatten_append, List.length_append, length_flatten_full h.full]
  unfold Batcher.count
  rw [records]
  rw [h.parts, List.length_append]
  cases rest : short with
  | none =>
    refine (Nat.div_eq_of_lt_le ?_ ?_).symm
    · simp; omega
    · simp [Nat.succ_mul]; omega
  | some b =>
    obtain ⟨nonempty, few⟩ := h.short b rest
    refine (Nat.div_eq_of_lt_le ?_ ?_).symm
    · simp [Nat.succ_mul]; omega
    · simp [Nat.succ_mul]; omega

/-- A full batch is offered, and it is not the last one. -/
theorem complete {b : Batch} (h : IsCut size batches full none)
    (whole : b.length = Batcher.effective size) : IsCut size (batches ++ [b]) (full ++ [b]) none where
  parts := by
    rw [h.parts, Option.toList_none, List.append_nil, List.append_nil]
  full c mem := by
    rcases List.mem_append.1 mem with mem | mem
    · exact h.full c mem
    · rw [List.mem_singleton.1 mem]
      exact whole
  short c same := by cases same

/-- What is left at the end of the stream is offered as the last batch. -/
theorem finish {b : Batch} (h : IsCut size batches full none)
    (nonempty : b ≠ []) (few : b.length < Batcher.effective size) :
    IsCut size (batches ++ [b]) full (some b) where
  parts := by
    rw [h.parts, Option.toList_none, List.append_nil, Option.toList_some]
  full := h.full
  short c same := by
    cases same
    exact ⟨List.length_pos_iff.2 nonempty, few⟩

/-- Full batches of some records are the first ones into which they are cut. -/
theorem full_prefix_chunks {records : List Record} (h : ∀ b ∈ full, b.length = Batcher.effective size)
    (begins : full.flatten <+: records) : full <+: Batcher.chunks size records := by
  induction full generalizing records with
  | nil => exact List.nil_prefix
  | cons b full ih =>
    obtain ⟨rest, rfl⟩ := begins
    rw [List.flatten_cons, List.append_assoc, Batcher.chunks_append (h b List.mem_cons_self)]
    exact (List.prefix_cons_inj b).2 (ih (fun c mem => h c (List.mem_cons_of_mem _ mem)) (List.prefix_append _ _))

/-- A cut of all records is the one into full batches and a rest. -/
theorem eq_chunks (h : IsCut size batches full short) : batches = Batcher.chunks size batches.flatten := by
  obtain ⟨rfl, whole, few⟩ := h
  induction full with
  | nil =>
    cases short with
    | none => simp [Batcher.chunks]
    | some b =>
      obtain ⟨nonempty, few⟩ := few b rfl
      simp [Batcher.chunks_of_short nonempty few]
  | cons b full ih =>
    rw [List.cons_append, List.flatten_cons, Batcher.chunks_append (whole b List.mem_cons_self),
      ← ih fun c mem => whole c (List.mem_cons_of_mem _ mem)]

/-- Batches without a smaller one are the first ones into which their records are cut, and those with it
are all of them. -/
theorem prefix_chunks {records : List Record} (h : IsCut size batches full short)
    (begins : batches.flatten <+: records) (all : short ≠ none → batches.flatten = records) :
    batches <+: Batcher.chunks size records := by
  cases last : short with
  | some b =>
    have whole := h.eq_chunks
    rw [all (by simp [last])] at whole
    exact whole ▸ List.prefix_rfl
  | none =>
    obtain rfl : batches = full := by rw [h.parts, last, Option.toList_none, List.append_nil]
    exact full_prefix_chunks h.full begins

/-- A batch that is not full is the last one. -/
theorem eq_short_of_mem {b : Batch} (h : IsCut size batches full short) (mem : b ∈ batches)
    (few : b.length < Batcher.effective size) : short = some b := by
  rw [h.parts] at mem
  rcases List.mem_append.1 mem with mem | mem
  · exact absurd (h.full b mem) (Nat.ne_of_lt few)
  · exact Option.mem_toList.1 mem

/-- What comes before the last batch is full. -/
theorem init {b : Batch} (h : IsCut size (batches ++ [b]) full short) : ∃ full', IsCut size batches full' none := by
  have alone : ∀ full' : List Batch, batches = full' → (∀ b ∈ full', b.length = Batcher.effective size) →
      IsCut size batches full' none := by
    rintro full' rfl whole
    exact ⟨by rw [Option.toList_none, List.append_nil], whole, nofun⟩
  have parts := h.parts
  cases last : short with
  | some c =>
    rw [last, Option.toList_some] at parts
    exact ⟨full, alone full (List.append_inj_left' parts rfl) h.full⟩
  | none =>
    rw [last, Option.toList_none, List.append_nil] at parts
    exact ⟨batches, alone batches rfl fun c mem => h.full c (parts ▸ List.mem_append_left _ mem)⟩

end IsCut

namespace Pipeline

/-- The batches that were received of a pipeline, those that wait and the one that is offered, in their
order. -/
def batches (received : List Batch) (p : Pipeline) : List Batch :=
  received ++ p.out.items ++ p.batcher.offer?.toList

/-- A pipeline whose batches are full, but for a last one when the stream is at its end. -/
structure Cuts (size : Nat) (received full : List Batch) (short : Option Batch) (p : Pipeline) : Prop where
  cut : IsCut size (p.batches received) full short
  last : short ≠ none → p.merge.out.items = [] ∧ p.merge.out.closed = true ∧ p.batcher.buffer = []
  room : p.batcher.buffer.length < Batcher.effective size

variable {size : Nat} {received full : List Batch} {short : Option Batch} {p q : Pipeline}

theorem cuts_ofSources (size : Nat) (sources : List Source) : (ofSources sources).Cuts size [] [] none where
  cut := by
    refine ⟨rfl, fun b mem => ?_, fun b mem => ?_⟩
    · cases mem
    · cases mem
  last remains := absurd rfl remains
  room := Batcher.effective_pos size

/-- A record is there, so no batch was the last one. -/
theorem Cuts.short_eq_none (h : p.Cuts size received full short) {r : Record} {rest : List Record}
    (items : p.merge.out.items = r :: rest) : short = none := by
  by_contra remains
  rw [(h.last remains).1] at items
  cases items

/-- What the cut says while the batcher is at a given task. -/
theorem Cuts.at_task (h : p.Cuts size received full short) {task : Batcher} (atTask : p.batcher = task) :
    IsCut size (received ++ p.out.items ++ task.offer?.toList) full short ∧
      task.buffer.length < Batcher.effective size ∧ (short ≠ none → task.buffer = []) := by
  subst atTask
  exact ⟨h.cut, h.room, fun remains => (h.last remains).2.2⟩

/-- The batcher takes a step. -/
theorem Cuts.batch (h : p.Cuts size received full short) (sound : p.Sound) (fits : Batcher.fits size = true)
    {b : Batching} (move : p.batching.Move false size b) :
    ∃ full' short', ({ merge := { p.merge with out := b.input }, batcher := b.task, out := b.out } :
      Pipeline).Cuts size received full' short' := by
  have pos := Batcher.effective_pos size
  cases move with
  | finish live why =>
    rcases why with ⟨task, items, closed⟩ | signal | large | gone
    · exact ⟨full, short, (h.at_task task).1, fun _ => ⟨rfl, closed, rfl⟩, pos⟩
    · cases signal
    · rw [fits] at large
      cases large
    · exact absurd (sound.outDropped gone) live
  | start task =>
    refine ⟨full, short, (h.at_task task).1, fun remains => ?_, pos⟩
    obtain ⟨items, closed, -⟩ := h.last remains
    exact ⟨items, closed, rfl⟩
  | fill task items few =>
    refine ⟨full, short, (h.at_task task).1, fun remains => absurd (h.short_eq_none items) remains, ?_⟩
    show (_ ++ [_]).length < _
    rw [List.length_append]
    exact few
  | @complete r rest buffer task items enough =>
    obtain rfl := h.short_eq_none items
    obtain ⟨cut, room, -⟩ := h.at_task task
    -- a batch is offered once it is full, so it never grows beyond its size
    have whole : (buffer ++ [r]).length = Batcher.effective size := by
      have few : buffer.length < Batcher.effective size := room
      rw [List.length_append, List.length_singleton]
      omega
    simp only [Batcher.offer?, Option.toList_none, List.append_nil] at cut
    exact ⟨full ++ [buffer ++ [r]], none, cut.complete whole, fun remains => absurd rfl remains, pos⟩
  | @last buffer task nonempty items closed =>
    obtain ⟨cut, room, before⟩ := h.at_task task
    -- after a last batch the buffer would be empty
    obtain rfl : short = none := by
      by_contra last
      exact nonempty (before last)
    simp only [Batcher.offer?, Option.toList_none, List.append_nil] at cut
    exact ⟨full, some buffer, cut.finish nonempty room, fun _ => ⟨items, closed, rfl⟩, pos⟩
  | send task listens =>
    refine ⟨full, short, ?_, fun remains => ?_, pos⟩
    · unfold batches
      show IsCut size (received ++ (p.out.items ++ [_]) ++ []) full short
      rw [List.append_nil, ← List.append_assoc]
      exact (h.at_task task).1
    · obtain ⟨items, closed, -⟩ := h.last remains
      exact ⟨items, closed, rfl⟩

/-- Every step of a stage cuts full batches, or the last one. -/
theorem Move.cuts (m : p.Move false size q) (h : p.Cuts size received full short) (sound : p.Sound)
    (fits : Batcher.fits size = true) : ∃ full' short', q.Cuts size received full' short' := by
  cases m with
  | feed found move => exact ⟨full, short, h.cut, h.last, h.room⟩
  | forward found move =>
    -- the output is open, so the stream is not at its end
    have isOpen := sound.open_of_forward found move
    refine ⟨full, short, h.cut, fun remains => ?_, h.room⟩
    rw [(h.last remains).2.1] at isOpen
    cases isOpen
  | batch move => exact h.batch sound fits move

/-- A worker receives the next batch. -/
theorem Cuts.receive (h : p.Cuts size received full short) {b : Batch} {rest : List Batch}
    (items : p.out.items = b :: rest) :
    ({ p with out := { p.out with items := rest } } : Pipeline).Cuts size (received ++ [b]) full short := by
  refine ⟨?_, h.last, h.room⟩
  have cut := h.cut
  unfold batches at cut ⊢
  rw [items] at cut
  show IsCut size (received ++ [b] ++ rest ++ p.batcher.offer?.toList) full short
  rwa [List.append_assoc received [b] rest]

end Pipeline

end Telemetry.Stage
