import DocetOS.Words
import DocetOS.Lib.Ring

/-!
# The queue (`queue.c`)

A ring buffer of `memoryEnd + 1` words of which one stays empty. The pointers
are kept as offsets from `memoryStart`, and each comes with the proof that it
points into the ring. Writing a word and advancing the pointer are separate
steps of the functions and separate definitions here.
-/

namespace DocetOS

/-- `OS_queue_t` and the ring behind it. -/
structure Queue where
  memory : Nat → Nat
  memoryEnd : Nat
  maxCapacity : Nat
  readPointer : Nat
  writePointer : Nat
  readPointer_le : readPointer ≤ memoryEnd
  writePointer_le : writePointer ≤ memoryEnd

/-- `new_queue` on a block that held `memory`. -/
def newQueue (capacity : Nat) (memory : Nat → Nat) : Queue where
  memory := memory
  memoryEnd := capacity
  maxCapacity := capacity
  readPointer := 0
  writePointer := 0
  readPointer_le := Nat.zero_le _
  writePointer_le := Nat.zero_le _

namespace Queue

/-- `OS_queue_isEmpty`. -/
def isEmpty (queue : Queue) : Bool := queue.readPointer = queue.writePointer

/-- `OS_queue_isFull`. -/
def isFull (queue : Queue) : Bool :=
  if queue.readPointer = 0 then queue.writePointer = queue.memoryEnd
  else queue.writePointer = queue.readPointer - 1

/-- The next place of a pointer into the ring. -/
def next (memoryEnd pointer : Nat) : Nat := if pointer = memoryEnd then 0 else pointer + 1

theorem next_le {memoryEnd pointer : Nat} (h : pointer ≤ memoryEnd) :
    next memoryEnd pointer ≤ memoryEnd := by
  unfold next
  split <;> omega

/-- The store of `OS_queue_write`. -/
def store (queue : Queue) (data : Nat) : Queue :=
  { queue with memory := Function.update queue.memory queue.writePointer data }

/-- The end of `OS_queue_write`. -/
def advanceWrite (queue : Queue) : Queue :=
  { queue with
      writePointer := next queue.memoryEnd queue.writePointer
      writePointer_le := next_le queue.writePointer_le }

/-- `OS_queue_write`; the second component is the status code. -/
def write (queue : Queue) (data : Nat) : Queue × Nat :=
  if queue.isFull then (queue, 0) else ((queue.store data).advanceWrite, 1)

/-- The load of `OS_queue_read`. -/
def load (queue : Queue) : Nat := queue.memory queue.readPointer

/-- The end of `OS_queue_read`. -/
def advanceRead (queue : Queue) : Queue :=
  { queue with
      readPointer := next queue.memoryEnd queue.readPointer
      readPointer_le := next_le queue.readPointer_le }

/-- `OS_queue_read`; `none` is the status code 0. -/
def read (queue : Queue) : Queue × Option Nat :=
  if queue.isEmpty then (queue, none) else (queue.advanceRead, some queue.load)

/-- `OS_queue_peekAt`; `none` is the status code 0. -/
def peekAt (queue : Queue) (n : Nat) : Queue × Option Nat :=
  if queue.isEmpty ∨ n ≥ queue.maxCapacity then (queue, none)
  else
    let wordsTillArrayEnd := queue.memoryEnd - queue.readPointer
    if n > wordsTillArrayEnd then (queue, some (queue.memory (n - wordsTillArrayEnd - 1)))
    else (queue, some (queue.memory (queue.readPointer + n)))

/-! ## The content -/

/-- The number of words in the queue. -/
def length (queue : Queue) : Nat :=
  if queue.readPointer ≤ queue.writePointer then queue.writePointer - queue.readPointer
  else queue.writePointer + (queue.memoryEnd + 1) - queue.readPointer

/-- The words in the queue, the oldest first. -/
def content (queue : Queue) : List Nat :=
  Lib.ring queue.memory (queue.memoryEnd + 1) queue.readPointer queue.length

variable {queue : Queue}

@[simp] theorem content_length : queue.content.length = queue.length := Lib.ring_length

theorem length_le (queue : Queue) : queue.length ≤ queue.memoryEnd := by
  have hr := queue.readPointer_le
  have hw := queue.writePointer_le
  unfold length
  split <;> omega

theorem isEmpty_iff : queue.isEmpty = true ↔ queue.length = 0 := by
  have hr := queue.readPointer_le
  have hw := queue.writePointer_le
  simp only [isEmpty, length, decide_eq_true_eq]
  split <;> omega

theorem isFull_iff : queue.isFull = true ↔ queue.length = queue.memoryEnd := by
  have hr := queue.readPointer_le
  have hw := queue.writePointer_le
  unfold isFull length
  split <;> split <;> simp only [decide_eq_true_eq] <;> omega

/-- The write pointer is behind the content. -/
theorem writePointer_eq (queue : Queue) :
    queue.writePointer = (queue.readPointer + queue.length) % (queue.memoryEnd + 1) := by
  have hr := queue.readPointer_le
  have hw := queue.writePointer_le
  unfold length
  split
  · rw [Nat.add_sub_cancel' ‹_›, Nat.mod_eq_of_lt (by omega)]
  · rw [Nat.add_sub_cancel' (by omega), Nat.add_mod_right, Nat.mod_eq_of_lt (by omega)]

theorem next_eq {memoryEnd pointer : Nat} (h : pointer ≤ memoryEnd) :
    next memoryEnd pointer = (pointer + 1) % (memoryEnd + 1) := by
  unfold next
  split
  · rename_i heq
    rw [heq, Nat.mod_self]
  · rw [Nat.mod_eq_of_lt (by omega)]

theorem store_content (queue : Queue) (data : Nat) :
    (queue.store data).content = queue.content := by
  have hlt : queue.length < queue.memoryEnd + 1 := Nat.lt_succ_of_le queue.length_le
  show Lib.ring (Function.update queue.memory queue.writePointer data) _ _ _ = _
  rw [queue.writePointer_eq]
  exact Lib.ring_update hlt data

theorem advanceWrite_length (h : queue.isFull = false) :
    queue.advanceWrite.length = queue.length + 1 := by
  have hr := queue.readPointer_le
  have hw := queue.writePointer_le
  have hle := queue.length_le
  have hfull : queue.length ≠ queue.memoryEnd := fun heq => by
    rw [isFull_iff.mpr heq] at h
    cases h
  simp only [length, advanceWrite, next] at hfull ⊢
  split at hfull <;> split <;> split <;> omega

/-- Advancing the write pointer takes the stored word in. -/
theorem advanceWrite_content (h : queue.isFull = false) :
    queue.advanceWrite.content = queue.content ++ [queue.memory queue.writePointer] := by
  show Lib.ring queue.memory (queue.memoryEnd + 1) queue.readPointer queue.advanceWrite.length = _
  rw [advanceWrite_length h, Lib.ring_succ, ← queue.writePointer_eq]
  rfl

theorem advanceRead_length (h : queue.isEmpty = false) :
    queue.advanceRead.length + 1 = queue.length := by
  have hr := queue.readPointer_le
  have hw := queue.writePointer_le
  have hempty : queue.length ≠ 0 := fun heq => by
    rw [isEmpty_iff.mpr heq] at h
    cases h
  simp only [length, advanceRead, next] at hempty ⊢
  split at hempty <;> split <;> split <;> omega

/-- Advancing the read pointer gives the loaded word up. -/
theorem advanceRead_content (h : queue.isEmpty = false) :
    queue.content = queue.load :: queue.advanceRead.content := by
  have hr := Nat.lt_succ_of_le queue.readPointer_le
  show Lib.ring queue.memory (queue.memoryEnd + 1) queue.readPointer queue.length = _
  rw [← advanceRead_length h, Lib.ring_cons hr, ← next_eq queue.readPointer_le]
  rfl

/-- `OS_queue_write` appends a word unless the queue is full. -/
theorem write_content (h : queue.isFull = false) (data : Nat) :
    (queue.write data).1.content = queue.content ++ [data] := by
  have hfull : (queue.store data).isFull = false := h
  rw [write, if_neg (by simp [h]), advanceWrite_content hfull, store_content]
  simp [store]

/-- `OS_queue_read` takes the oldest word unless the queue is empty. -/
theorem read_content (h : queue.isEmpty = false) :
    queue.content = queue.load :: queue.read.1.content := by
  rw [read, if_neg (by simp [h])]
  exact advanceRead_content h

end Queue

end DocetOS
