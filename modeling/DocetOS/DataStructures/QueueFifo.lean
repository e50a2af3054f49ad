import DocetOS.DataStructures.Queue
import DocetOS.Lib.Fifo

/-!
# The ring buffer is a bounded FIFO

The words from the read pointer up to the write pointer are the words written and
not yet read. A ring has one place more than its capacity, so a full one and an
empty one have their pointers in different places.

- `write_step`, `read_step`: one call.
- `queue_refines_fifo`: every run on a fresh queue.
- `peekAt_sees_queued_iff`: `OS_queue_peekAt` tests its index against the
  capacity, so beside the queued words it shows words that have been read.
-/

namespace DocetOS.Queue

open Lib

/-! ## One call -/

/-- A call of a writer or a reader. -/
inductive Call where
  | write (data : Nat)
  | read

namespace Call

/-- The queue after a call. -/
def next (queue : Queue) : Call → Queue
  | .write data => (queue.write data).1
  | .read => queue.read.1

/-- The call with its status code, and with what `*_return` is set to when it is
written. -/
def answer (queue : Queue) : Call → Fifo.Event Nat
  | .write data => .write data (decide ((queue.write data).2 ≠ 0))
  | .read => .read queue.read.2

end Call

variable {queue : Queue} {capacity : Nat}

theorem write_of_full (h : queue.isFull = true) (data : Nat) : queue.write data = (queue, 0) :=
  if_pos h

theorem write_status (h : queue.isFull = false) (data : Nat) : (queue.write data).2 = 1 := by
  rw [write, if_neg (by simp [h])]

theorem read_of_empty (h : queue.isEmpty = true) : queue.read = (queue, none) := if_pos h

theorem read_returned (h : queue.isEmpty = false) : queue.read.2 = some queue.load := by
  rw [read, if_neg (by simp [h])]

/-- `write` is refused exactly when there are as many words as the ring takes. -/
theorem write_eq_zero_iff (data : Nat) :
    (queue.write data).2 = 0 ↔ queue.content.length = queue.memoryEnd := by
  rw [content_length, ← isFull_iff]
  cases hfull : queue.isFull with
  | true => simp [write_of_full hfull data]
  | false => simp [write_status hfull data]

/-- `read` is refused exactly when there is no word. -/
theorem read_eq_none_iff : queue.read.2 = none ↔ queue.content = [] := by
  rw [← List.length_eq_zero_iff, content_length, ← isEmpty_iff]
  cases hempty : queue.isEmpty with
  | true => simp [read_of_empty hempty]
  | false => simp [read_returned hempty]

/-- What `read` returns is the oldest word. -/
theorem read_eq_head? (queue : Queue) : queue.read.2 = queue.content.head? := by
  cases hempty : queue.isEmpty with
  | true =>
    have hnone : queue.read.2 = none := by rw [read_of_empty hempty]
    rw [hnone, read_eq_none_iff.mp hnone, List.head?_nil]
  | false => rw [read_returned hempty, read_content hempty, List.head?_cons]

/-- What is left after `read` is the rest. -/
theorem read_tail (queue : Queue) : queue.read.1.content = queue.content.tail := by
  cases hempty : queue.isEmpty with
  | true =>
    have hnone : queue.read.2 = none := by rw [read_of_empty hempty]
    rw [read_of_empty hempty, read_eq_none_iff.mp hnone, List.tail_nil]
  | false => rw [read_content hempty, List.tail_cons]

theorem write_step (hc : queue.memoryEnd = capacity) (data : Nat) :
    Fifo.Step capacity queue.content (Call.answer queue (.write data))
      (Call.next queue (.write data)).content := by
  simp only [Call.answer, Call.next]
  cases hfull : queue.isFull with
  | true =>
    rw [write_of_full hfull]
    refine .refuse ?_
    rw [content_length, isFull_iff.mp hfull, hc]
  | false =>
    rw [write_status hfull, write_content hfull]
    refine .write ?_
    have hle := queue.length_le
    have hne : queue.length ≠ queue.memoryEnd := fun heq => by
      rw [isFull_iff.mpr heq] at hfull
      cases hfull
    rw [content_length]
    omega

theorem read_step (queue : Queue) :
    Fifo.Step capacity queue.content (Call.answer queue .read)
      (Call.next queue .read).content := by
  simp only [Call.answer, Call.next, read_eq_head?, read_tail]
  cases queue.content with
  | nil => exact .empty
  | cons oldest rest => exact .read

/-- **One call** is a call of the abstract queue. -/
theorem call_step (hc : queue.memoryEnd = capacity) (call : Call) :
    Fifo.Step capacity queue.content (call.answer queue) (call.next queue).content := by
  cases call with
  | write data => exact write_step hc data
  | read => exact read_step queue

/-- The size of the ring never changes. -/
theorem next_memoryEnd (queue : Queue) (call : Call) :
    (call.next queue).memoryEnd = queue.memoryEnd ∧
      (call.next queue).maxCapacity = queue.maxCapacity := by
  cases call with
  | write data =>
    simp only [Call.next, Queue.write]
    split <;> exact ⟨rfl, rfl⟩
  | read =>
    simp only [Call.next, Queue.read]
    split <;> exact ⟨rfl, rfl⟩

/-! ## Runs -/

/-- The queue after the calls `calls` on a fresh one. -/
def afterCalls (capacity : Nat) (memory : Nat → Nat) (calls : List Call) : Queue :=
  calls.foldl Call.next (newQueue capacity memory)

theorem afterCalls_capacity (capacity : Nat) (memory : Nat → Nat) (calls : List Call) :
    (afterCalls capacity memory calls).memoryEnd = capacity ∧
      (afterCalls capacity memory calls).maxCapacity = capacity := by
  refine List.foldlRecOn (motive := fun queue : Queue =>
    queue.memoryEnd = capacity ∧ queue.maxCapacity = capacity) calls Call.next ⟨rfl, rfl⟩ ?_
  rintro queue ⟨hend, hmax⟩ call -
  obtain ⟨hend', hmax'⟩ := next_memoryEnd queue call
  exact ⟨hend'.trans hend, hmax'.trans hmax⟩

/-- The queue after the run with these events is the FIFO of at most `capacity`
words. -/
structure RefinesFifo (capacity : Nat) (events : List (Fifo.Event Nat)) (queue : Queue) :
    Prop where
  /-- What lies between the pointers is what was written and not yet read. -/
  run : Run (Fifo.Step capacity) [] events queue.content
  write_refused : ∀ data, (queue.write data).2 = 0 ↔ queue.content.length = capacity
  write_unchanged : ∀ data, (queue.write data).2 = 0 → (queue.write data).1 = queue
  write_accepted : ∀ data, (queue.write data).2 ≠ 0 →
    (queue.write data).2 = 1 ∧ (queue.write data).1.content = queue.content ++ [data]
  read_refused : queue.read.2 = none ↔ queue.content = []
  read_unchanged : queue.read.2 = none → queue.read.1 = queue
  read_oldest : ∀ data, queue.read.2 = some data →
    queue.content = data :: queue.read.1.content
  readPointer_le : queue.readPointer ≤ queue.memoryEnd
  writePointer_le : queue.writePointer ≤ queue.memoryEnd

/-- **The ring buffer is a bounded FIFO**: in every run of writes and reads on a
fresh queue, however often the pointers have gone round. -/
theorem queue_refines_fifo (capacity : Nat) (memory : Nat → Nat) (calls : List Call) :
    RefinesFifo capacity
      (transcript Call.next Call.answer (newQueue capacity memory) calls)
      (afterCalls capacity memory calls) := by
  have hcapacity : ∀ (queue : Queue) (call : Call), queue.memoryEnd = capacity →
      (call.next queue).memoryEnd = capacity :=
    fun queue call h => (next_memoryEnd queue call).1.trans h
  -- the simulation: every call is a step of the bounded queue
  have hrun : Run (Fifo.Step capacity) (newQueue capacity memory).content
      (transcript Call.next Call.answer (newQueue capacity memory) calls)
      (afterCalls capacity memory calls).content :=
    Run.of_simulation (P := fun queue : Queue => queue.memoryEnd = capacity) content
      hcapacity (fun queue call h => call_step h call) rfl calls
  -- what the next call does, after any of the calls
  have hend := (afterCalls_capacity capacity memory calls).1
  generalize afterCalls capacity memory calls = queue at hend hrun ⊢
  refine
    { run := hrun
      write_refused := fun data => by rw [write_eq_zero_iff, hend]
      write_unchanged := fun data hstatus => ?_
      write_accepted := fun data hstatus => ?_
      read_refused := read_eq_none_iff
      read_unchanged := fun hnone => ?_
      read_oldest := fun data hsome => ?_
      readPointer_le := queue.readPointer_le
      writePointer_le := queue.writePointer_le }
  · cases hfull : queue.isFull with
    | true => rw [write_of_full hfull]
    | false =>
      rw [write_status hfull] at hstatus
      exact absurd hstatus Nat.one_ne_zero
  · cases hfull : queue.isFull with
    | true => exact absurd (congrArg Prod.snd (write_of_full hfull data)) hstatus
    | false => exact ⟨write_status hfull data, write_content hfull data⟩
  · cases hempty : queue.isEmpty with
    | true => rw [read_of_empty hempty]
    | false =>
      rw [read_returned hempty] at hnone
      cases hnone
  · rw [read_eq_head?] at hsome
    rw [read_tail]
    exact (List.cons_head?_tail hsome).symm

/-! ## `OS_queue_peekAt` -/

/-- The queue after `n` reads. -/
def afterReads (queue : Queue) : Nat → Queue
  | 0 => queue
  | n + 1 => afterReads queue.read.1 n

/-- `n` reads take the `n` oldest words. -/
theorem afterReads_content (queue : Queue) (n : Nat) :
    (queue.afterReads n).content = queue.content.drop n := by
  induction n generalizing queue with
  | zero => rfl
  | succ n ih => rw [afterReads, ih, read_tail, List.drop_tail]

theorem afterReads_read (queue : Queue) (n : Nat) :
    (queue.afterReads n).read.2 = queue.content[n]? := by
  rw [read_eq_head?, afterReads_content, List.head?_drop]

/-- Inside the ring, and unless the queue is empty, `peekAt` shows the word `n`
places from the read pointer on. -/
theorem peekAt_eq (hc : queue.maxCapacity = queue.memoryEnd) {n : Nat}
    (hempty : queue.isEmpty = false) (hn : n < queue.maxCapacity) :
    queue.peekAt n = (queue,
      some (queue.memory ((queue.readPointer + n) % (queue.memoryEnd + 1)))) := by
  have hr := queue.readPointer_le
  unfold peekAt
  rw [if_neg (by simp [hempty, hn])]
  dsimp only
  split
  · -- past the end of the array: the index starts again at `memoryStart`
    have hindex : queue.readPointer + n =
        n - (queue.memoryEnd - queue.readPointer) - 1 + (queue.memoryEnd + 1) := by omega
    rw [hindex, Nat.add_mod_right, Nat.mod_eq_of_lt (by omega)]
  · rw [Nat.mod_eq_of_lt (by omega)]

/-- `peekAt` tests the index against the capacity, not against the number of
words. -/
theorem peekAt_eq_none_iff (hc : queue.maxCapacity = queue.memoryEnd) (n : Nat) :
    (queue.peekAt n).2 = none ↔ queue.content = [] ∨ queue.memoryEnd ≤ n := by
  rw [← read_eq_none_iff]
  cases hempty : queue.isEmpty with
  | true => simp [peekAt, hempty, read_of_empty hempty]
  | false =>
    rw [read_returned hempty, ← hc]
    by_cases hn : n < queue.maxCapacity
    · simp [peekAt_eq hc hempty hn, Nat.not_le.mpr hn]
    · simp [peekAt, Nat.not_lt.mp hn]

theorem peekAt_of_lt (hc : queue.maxCapacity = queue.memoryEnd) {n : Nat}
    (hn : n < queue.content.length) : (queue.peekAt n).2 = queue.content[n]? := by
  have hle := queue.length_le
  have hempty : queue.isEmpty = false := by
    rw [← Bool.not_eq_true, isEmpty_iff, ← content_length]
    exact Nat.ne_of_gt (Nat.zero_lt_of_lt hn)
  rw [content_length] at hn
  rw [peekAt_eq hc hempty (by omega), content, ring_getElem? hn]

theorem peekAt_fst (queue : Queue) (n : Nat) : (queue.peekAt n).1 = queue := by
  simp only [peekAt]
  split
  · rfl
  · split <;> rfl

/-- What a caller of `peekAt` relies on: it shows the word that the next read but
`n` returns, when there is one, and nothing otherwise, and leaves the queue as it
is. -/
structure SeesQueued (queue : Queue) (n : Nat) : Prop where
  shows_iff : (queue.peekAt n).2 ≠ none ↔ n < queue.content.length
  word : n < queue.content.length → (queue.peekAt n).2 = (queue.afterReads n).read.2
  unchanged : (queue.peekAt n).1 = queue

/-- **`peekAt` shows queued words** exactly when its index is below the number of
queued words, or is refused because the queue is empty or the index is not below
the capacity. In between it shows a word that is not in the queue. -/
theorem peekAt_sees_queued_iff (capacity : Nat) (memory : Nat → Nat) (calls : List Call)
    (n : Nat) :
    SeesQueued (afterCalls capacity memory calls) n ↔
      n < (afterCalls capacity memory calls).content.length ∨
        (afterCalls capacity memory calls).content = [] ∨ capacity ≤ n := by
  obtain ⟨hend, hmax⟩ := afterCalls_capacity capacity memory calls
  generalize afterCalls capacity memory calls = queue at hend hmax ⊢
  have hc : queue.maxCapacity = queue.memoryEnd := hmax.trans hend.symm
  have hnone := peekAt_eq_none_iff hc n
  rw [hend] at hnone
  constructor
  · intro h
    by_cases hn : n < queue.content.length
    · exact .inl hn
    · refine .inr (hnone.mp ?_)
      by_contra hshown
      exact hn (h.shows_iff.mp hshown)
  · intro h
    refine ⟨⟨?_, ?_⟩, ?_, peekAt_fst queue n⟩
    · intro hshown
      exact h.resolve_right fun hrefused => hshown (hnone.mpr hrefused)
    · intro hn
      rw [peekAt_of_lt hc hn, ne_eq, List.getElem?_eq_none_iff]
      exact Nat.not_le.mpr hn
    · intro hn
      rw [afterReads_read, peekAt_of_lt hc hn]

/-- A queue of two words with one word in it shows a second one, which no read
returns. -/
theorem peekAt_past_content :
    (afterCalls 2 (fun _ => 0) [.write 7, .write 8, .read]).content = [8] ∧
      ((afterCalls 2 (fun _ => 0) [.write 7, .write 8, .read]).peekAt 1).2 = some 0 ∧
      ¬ SeesQueued (afterCalls 2 (fun _ => 0) [.write 7, .write 8, .read]) 1 := by
  refine ⟨by decide, by decide, ?_⟩
  intro h
  exact absurd (h.shows_iff.mp (by decide)) (by decide)

end DocetOS.Queue
