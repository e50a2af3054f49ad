import DocetOS.DataStructures.ChannelRuns

/-!
# The order of the words on a channel

- `Locked`: the task between `check` and `unlock` owns `queueLock`.
- `Ordered`: the words written are the words read and then the content of the
  ring. Only the owner of the lock changes the ring, and by `Counted` it is never
  refused.

Both are kept by every step, and `channel_fifo` reads the delivery off them.
-/

namespace DocetOS

/-- Between `OS_mutex_acquire` and `OS_mutex_release`. -/
def ChannelPc.inLock : ChannelPc → Bool
  | .takeToken | .takeWait | .lock => false
  | _ => true

/-- The word of a call that has moved the pointer. -/
def ChannelPc.data : ChannelPc → Option Nat
  | .giveToken data | .giveWait data | .unlock data => some data
  | _ => none

namespace ChannelSystem

/-! ## The lock -/

/-- The task is between `OS_mutex_acquire` and `OS_mutex_release`. -/
def critical : Option (ChannelCall × ChannelPc) → Bool
  | some (_, pc) => pc.inLock
  | none => false

structure Locked (s : ChannelSystem) : Prop where
  null : s.pc NULL = none
  owner : ∀ task, critical (s.pc task) = true → s.channel.queueLock.tcbPointer = task
  free : s.channel.queueLock.tcbPointer = NULL → s.channel.queueLock.counter = 0
  held : s.channel.queueLock.tcbPointer ≠ NULL →
    s.channel.queueLock.counter = 1 ∧ critical (s.pc s.channel.queueLock.tcbPointer) = true

theorem Locked.init {k : Nat} {s : ChannelSystem} (h : Fresh k s) : Locked s := by
  obtain ⟨-, -, -, -, hfree, hcounter⟩ := h.channel.start
  refine
    { null := h.pc NULL
      owner := ?_
      free := fun _ => hcounter
      held := fun hheld => absurd hfree hheld }
  intro task htask
  rw [h.pc task] at htask
  cases htask

section Steps

variable {k : Nat} {s s' x : ChannelSystem} {task other stack : Nat} {function : ChannelCall}
  {pc : ChannelPc}

theorem Locked.ne_null (h : Locked s) (hpc : s.pc task = some (function, pc)) : task ≠ NULL := by
  rintro rfl
  rw [h.null] at hpc
  cases hpc

/-- Only one task is in its critical section. -/
theorem Locked.not_critical (h : Locked s) (htask : critical (s.pc task) = true)
    (hother : other ≠ task) : critical (s.pc other) = false := by
  cases hc : critical (s.pc other)
  · rfl
  · exact absurd ((h.owner other hc).symm.trans (h.owner task htask)) hother

/-- A step that leaves the lock alone and does not cross the ends of the critical
section. -/
theorem Locked.still (h : Locked s) (hnull : task ≠ NULL)
    (place : Option (ChannelCall × ChannelPc)) (hpc : x.pc = s.pc)
    (hlock : x.channel.queueLock = s.channel.queueLock)
    (hplace : critical place = critical (s.pc task)) : Locked (x.goTo task place) := by
  -- nobody enters or leaves the critical section
  have hcritical : ∀ other, critical (Function.update s.pc task place other) =
      critical (s.pc other) := by
    intro other
    by_cases hother : other = task
    · rw [hother, Function.update_self, hplace]
    · rw [Function.update_of_ne hother]
  refine
    { null := ?_
      owner := ?_
      free := ?_
      held := ?_ }
  · show Function.update x.pc task place NULL = none
    rw [hpc, Function.update_of_ne hnull.symm]
    exact h.null
  · intro other hother
    show x.channel.queueLock.tcbPointer = other
    rw [hlock]
    refine h.owner other ?_
    rw [← hcritical other, ← hpc]
    exact hother
  · show x.channel.queueLock.tcbPointer = NULL → x.channel.queueLock.counter = 0
    rw [hlock]
    exact h.free
  · show x.channel.queueLock.tcbPointer ≠ NULL → x.channel.queueLock.counter = 1 ∧
      critical (Function.update x.pc task place x.channel.queueLock.tcbPointer) = true
    rw [hlock, hpc, hcritical]
    exact h.held

/-- The lock that a task outside its critical section acquires was free. -/
theorem Locked.acquire_free (h : Locked s) (hpc : s.pc task = some (function, .lock))
    {queueLock : Mutex} (hacquire : s.channel.queueLock.acquire task = some queueLock) :
    s.channel.queueLock.tcbPointer = NULL ∧ queueLock.tcbPointer = task ∧
      queueLock.counter = 1 := by
  have hfree : s.channel.queueLock.tcbPointer = NULL := by
    by_contra hheld
    -- the owner is in its critical section, so it is not `task`
    have hcritical := (h.held hheld).2
    simp only [Mutex.acquire, hheld, false_or] at hacquire
    split at hacquire
    · rename_i howner
      rw [howner, hpc] at hcritical
      cases hcritical
    · cases hacquire
  refine ⟨hfree, Mutex.acquire_owner hacquire, ?_⟩
  simp only [Mutex.acquire, hfree, true_or, if_true, Option.some.injEq] at hacquire
  rw [← hacquire]
  show wrap (s.channel.queueLock.counter + 1) = 1
  rw [h.free hfree]
  rfl

theorem Locked.acquire (h : Locked s) (hpc : s.pc task = some (function, .lock))
    {queueLock : Mutex} (hacquire : s.channel.queueLock.acquire task = some queueLock) :
    Locked ({ s with channel := { s.channel with queueLock } }.goTo task
      (some (function, .check))) := by
  have hnull := h.ne_null hpc
  obtain ⟨hfree, howner, hcounter⟩ := h.acquire_free hpc hacquire
  refine
    { null := ?_
      owner := ?_
      free := fun hnone => absurd (howner.symm.trans hnone) hnull
      held := fun _ => ⟨hcounter, ?_⟩ }
  · exact (Function.update_of_ne hnull.symm _ _).trans h.null
  · intro other hother
    by_cases heq : other = task
    · rw [heq]
      exact howner
    · have hcritical : critical (s.pc other) = true := by
        rw [← Function.update_of_ne heq (some (function, ChannelPc.check)) s.pc]
        exact hother
      have hnone := (h.owner other hcritical).symm.trans hfree
      rw [hnone, h.null] at hcritical
      cases hcritical
  · show critical (Function.update s.pc task (some (function, .check)) queueLock.tcbPointer) = true
    rw [howner, Function.update_self]
    rfl

/-- The task at `unlock` owns the lock once, and frees it. -/
theorem Locked.release_free (h : Locked s) (hcritical : critical (s.pc task) = true)
    (hnull : task ≠ NULL) :
    (s.channel.queueLock.release task).tcbPointer = NULL ∧
      (s.channel.queueLock.release task).counter = 0 := by
  have howner := h.owner task hcritical
  have hcounter := (h.held (by rw [howner]; exact hnull)).1
  simp [Mutex.release, howner, hcounter, decr]

theorem Locked.release (h : Locked s) {data : Nat}
    (hpc : s.pc task = some (function, .unlock data)) (returned : List Nat) :
    Locked ({ s with
      channel := { s.channel with queueLock := s.channel.queueLock.release task }
      returned }.goTo task none) := by
  have hnull := h.ne_null hpc
  have hcritical : critical (s.pc task) = true := by
    rw [hpc]
    rfl
  obtain ⟨hfree, hcounter⟩ := h.release_free hcritical hnull
  refine
    { null := ?_
      owner := ?_
      free := fun _ => hcounter
      held := fun hheld => absurd hfree hheld }
  · exact (Function.update_of_ne hnull.symm _ _).trans h.null
  · intro other hother
    by_cases heq : other = task
    · rw [heq] at hother
      have hnone : critical (Function.update s.pc task none task) = true := hother
      rw [Function.update_self] at hnone
      cases hnone
    · have hsame := h.not_critical hcritical heq
      rw [← Function.update_of_ne heq none s.pc] at hsame
      exact absurd (show critical (Function.update s.pc task none other) = true from hother)
        (by rw [hsame]; exact Bool.false_ne_true)

/-- Taking or giving a token leaves the lock and the queue alone. -/
theorem take_frame {channel : Channel} (h : function.take s.channel = some channel) :
    channel.queueLock = s.channel.queueLock ∧ channel.queue = s.channel.queue := by
  cases function <;>
  · obtain ⟨tokens, -, rfl⟩ := Option.map_eq_some_iff.mp h
    exact ⟨rfl, rfl⟩

theorem give_frame {channel : Channel} (h : function.give s.channel = some channel) :
    channel.queueLock = s.channel.queueLock ∧ channel.queue = s.channel.queue := by
  cases function <;>
  · obtain ⟨tokens, -, rfl⟩ := Option.map_eq_some_iff.mp h
    exact ⟨rfl, rfl⟩

/-- **Every step keeps the lock.** -/
theorem Locked.advance (h : Locked s) (hpc : s.pc task = some (function, pc))
    (hs : s.advance task stack function pc = some s') : Locked s' := by
  have hnull := h.ne_null hpc
  have hplace : critical (s.pc task) = pc.inLock := by
    rw [hpc]
    rfl
  -- only `lock` and `unlock` change who holds the lock
  cases pc <;> simp only [ChannelSystem.advance] at hs
  case takeToken =>
    split at hs <;> cases hs
    · exact h.still hnull _ rfl (take_frame ‹_›).1 hplace.symm
    · exact h.still hnull _ rfl rfl hplace.symm
  case takeWait =>
    cases hs
    exact h.still hnull _ rfl rfl hplace.symm
  case lock =>
    obtain ⟨queueLock, hacquire, rfl⟩ := Option.map_eq_some_iff.mp hs
    exact h.acquire hpc hacquire
  case check =>
    split at hs <;> cases hs
    · exact h.still hnull _ (record_pc s function stack)
        (congrArg Channel.queueLock (record_channel s function stack)) hplace.symm
    · exact h.still hnull _ rfl rfl hplace.symm
  case access =>
    cases function <;> cases hs
    · exact h.still hnull _ rfl rfl hplace.symm
    · exact h.still hnull _ rfl rfl hplace.symm
  case advance data =>
    cases function <;> cases hs
    · exact h.still hnull _ rfl rfl hplace.symm
    · exact h.still hnull _ rfl rfl hplace.symm
  case giveToken data =>
    split at hs <;> cases hs
    · exact h.still hnull _ rfl (give_frame ‹_›).1 hplace.symm
    · exact h.still hnull _ rfl rfl hplace.symm
  case giveWait data =>
    cases hs
    exact h.still hnull _ rfl rfl hplace.symm
  case unlock data =>
    cases hs
    exact h.release hpc _

theorem Locked.step {e : ChannelEvent} (h : Locked s) (hs : s.step e = some s') : Locked s' := by
  rcases step_cases hs with ⟨task, function, rfl, hnull, hpc, rfl⟩ |
    ⟨task, stack, function, pc, rfl, hpc, hs⟩
  · refine h.still hnull _ rfl rfl ?_
    rw [hpc]
    rfl
  · exact h.advance hpc hs

end Steps

/-! ## The words -/

/-- The word of a reader that has moved the pointer and not yet returned. -/
def unreturned : Option (ChannelCall × ChannelPc) → List Nat
  | some (.read, pc) => pc.data.toList
  | _ => []

/-- Before its move of the pointer, a writer has stored its word where the pointer
points, and a reader has loaded its word from there. -/
def Staged (queue : Queue) : Option (ChannelCall × ChannelPc) → Prop
  | some (.write word, .advance _) => queue.memory queue.writePointer = word
  | some (.read, .advance data) => queue.load = data
  | _ => True

structure Ordered (s : ChannelSystem) : Prop where
  content : s.written = s.reads ++ s.channel.queue.content
  returned : s.reads = s.returned ++ unreturned (s.pc s.channel.queueLock.tcbPointer)
  staged : ∀ task, Staged s.channel.queue (s.pc task)

theorem Ordered.init {k : Nat} {s : ChannelSystem} (h : Fresh k s) : Ordered s := by
  obtain ⟨hlength, -⟩ := h.channel.start
  refine
    { content := ?_
      returned := ?_
      staged := ?_ }
  · rw [h.written, h.reads, List.nil_append, eq_comm]
    exact List.length_eq_zero_iff.mp (Queue.content_length.trans hlength)
  · rw [h.reads, h.returned, h.pc]
    rfl
  · intro task
    rw [h.pc task]
    trivial

theorem staged_of_not_critical {queue : Queue} {place : Option (ChannelCall × ChannelPc)}
    (h : critical place = false) : Staged queue place := by
  rcases place with _ | ⟨function, pc⟩
  · trivial
  · cases function <;> cases pc <;> trivial

section Steps

variable {k : Nat} {s s' x : ChannelSystem} {task other stack : Nat} {function : ChannelCall}
  {pc : ChannelPc}

/-- A step of `task` that leaves the words alone. -/
theorem Ordered.still (h : Ordered s) (place : Option (ChannelCall × ChannelPc))
    (hpc : x.pc = s.pc) (hlock : x.channel.queueLock = s.channel.queueLock)
    (hqueue : x.channel.queue = s.channel.queue) (hwritten : x.written = s.written)
    (hreads : x.reads = s.reads) (hreturned : x.returned = s.returned)
    (hplace : unreturned place = unreturned (s.pc task))
    (hstaged : Staged s.channel.queue place) : Ordered (x.goTo task place) := by
  refine
    { content := ?_
      returned := ?_
      staged := ?_ }
  · show x.written = x.reads ++ x.channel.queue.content
    rw [hwritten, hreads, hqueue]
    exact h.content
  · show x.reads = x.returned ++
      unreturned (Function.update x.pc task place x.channel.queueLock.tcbPointer)
    rw [hreads, hreturned, hpc, hlock, h.returned]
    by_cases howner : s.channel.queueLock.tcbPointer = task
    · rw [howner, Function.update_self, hplace]
    · rw [Function.update_of_ne howner]
  · intro other
    show Staged x.channel.queue (Function.update x.pc task place other)
    rw [hqueue, hpc]
    by_cases hother : other = task
    · rw [hother, Function.update_self]
      exact hstaged
    · rw [Function.update_of_ne hother]
      exact h.staged other

/-- Such a step from one place of a call to another, neither of which is the move
of the pointer. -/
theorem Ordered.move (h : Ordered s) (hpc : s.pc task = some (function, pc)) (pc' : ChannelPc)
    (hx : x.pc = s.pc) (hlock : x.channel.queueLock = s.channel.queueLock)
    (hqueue : x.channel.queue = s.channel.queue) (hwritten : x.written = s.written)
    (hreads : x.reads = s.reads) (hreturned : x.returned = s.returned)
    (hdata : pc'.data = pc.data) (hadvance : ∀ data, pc' ≠ .advance data) :
    Ordered (x.goTo task (some (function, pc'))) := by
  refine h.still _ hx hlock hqueue hwritten hreads hreturned ?_ ?_
  · rw [hpc]
    cases function with
    | write word => rfl
    | read => exact congrArg Option.toList hdata
  · cases pc' <;> cases function <;> first | trivial | exact absurd rfl (hadvance _)

/-- A step of the task in its critical section. -/
theorem Ordered.critical (h : Locked s) (hcritical : critical (s.pc task) = true)
    (place : Option (ChannelCall × ChannelPc)) (hpc : x.pc = s.pc)
    (hlock : x.channel.queueLock = s.channel.queueLock)
    (hcontent : x.written = x.reads ++ x.channel.queue.content)
    (hreturned : x.reads = x.returned ++ unreturned place)
    (hstaged : Staged x.channel.queue place) : Ordered (x.goTo task place) := by
  refine
    { content := hcontent
      returned := ?_
      staged := ?_ }
  · show x.reads = x.returned ++
      unreturned (Function.update x.pc task place x.channel.queueLock.tcbPointer)
    rw [hlock, h.owner task hcritical, Function.update_self]
    exact hreturned
  · intro other
    show Staged x.channel.queue (Function.update x.pc task place other)
    by_cases hother : other = task
    · rw [hother, Function.update_self]
      exact hstaged
    · rw [Function.update_of_ne hother, hpc]
      exact staged_of_not_critical (h.not_critical hcritical hother)

theorem Ordered.access (h : Ordered s) (hl : Locked s)
    (hpc : s.pc task = some (function, .access)) :
    Ordered ({ s with channel := (accessRing s.channel function).1 }.goTo task
      (some (function, .advance (accessRing s.channel function).2))) := by
  have hcritical : ChannelSystem.critical (s.pc task) = true := by
    rw [hpc]
    rfl
  have hreturned := h.returned
  rw [hl.owner task hcritical, hpc] at hreturned
  cases function with
  | write word =>
    refine Ordered.critical hl hcritical _ rfl rfl ?_ hreturned ?_
    · show s.written = s.reads ++ (s.channel.queue.store word).content
      rw [Queue.store_content]
      exact h.content
    · exact Function.update_self _ _ _
  | read => exact Ordered.critical hl hcritical _ rfl rfl h.content hreturned rfl

/-- The move of the pointer is where a word joins the history. -/
theorem Ordered.advanceRing (h : Ordered s) (hl : Locked s) (hc : Counted k s) {data : Nat}
    (hpc : s.pc task = some (function, .advance data)) :
    Ordered (({ s with channel := advanceRing s.channel function }.record function data).goTo
      task (some (function, .giveToken data))) := by
  have hok := hc.not_refused hpc rfl
  have hcritical : ChannelSystem.critical (s.pc task) = true := by
    rw [hpc]
    rfl
  have hreturned := h.returned
  rw [hl.owner task hcritical, hpc] at hreturned
  have hstaged := h.staged task
  rw [hpc] at hstaged
  cases function with
  | write word =>
    refine Ordered.critical hl hcritical _ rfl rfl ?_ hreturned trivial
    show s.written ++ [word] = s.reads ++ s.channel.queue.advanceWrite.content
    have hword : s.channel.queue.memory s.channel.queue.writePointer = word := hstaged
    rw [Queue.advanceWrite_content hok, hword, h.content, List.append_assoc]
  | read =>
    have hload : s.channel.queue.load = data := hstaged
    refine Ordered.critical hl hcritical _ rfl rfl ?_ ?_ trivial
    · show s.written = (s.reads ++ [data]) ++ s.channel.queue.advanceRead.content
      rw [h.content, Queue.advanceRead_content hok, hload, List.append_assoc]
      rfl
    · show s.reads ++ [data] = s.returned ++ [data]
      rw [hreturned]
      exact congrArg (· ++ [data]) (List.append_nil _)

theorem Ordered.acquire (h : Ordered s) (hl : Locked s)
    (hpc : s.pc task = some (function, .lock)) {queueLock : Mutex}
    (hacquire : s.channel.queueLock.acquire task = some queueLock) :
    Ordered ({ s with channel := { s.channel with queueLock } }.goTo task
      (some (function, .check))) := by
  obtain ⟨hfree, howner, -⟩ := hl.acquire_free hpc hacquire
  have hreturned := h.returned
  rw [hfree, hl.null] at hreturned
  refine
    { content := h.content
      returned := ?_
      staged := ?_ }
  · show s.reads = s.returned ++
      unreturned (Function.update s.pc task (some (function, .check)) queueLock.tcbPointer)
    rw [howner, Function.update_self]
    cases function <;> exact hreturned
  · intro other
    show Staged s.channel.queue (Function.update s.pc task (some (function, .check)) other)
    by_cases hother : other = task
    · rw [hother, Function.update_self]
      cases function <;> trivial
    · rw [Function.update_of_ne hother]
      exact h.staged other

/-- A call returns its word as it frees the lock. -/
theorem Ordered.release (h : Ordered s) (hl : Locked s) {data : Nat}
    (hpc : s.pc task = some (function, .unlock data)) {returned : List Nat}
    (hword : returned = s.returned ++ unreturned (some (function, .unlock data))) :
    Ordered ({ s with
      channel := { s.channel with queueLock := s.channel.queueLock.release task }
      returned }.goTo task none) := by
  have hnull := hl.ne_null hpc
  have hcritical : ChannelSystem.critical (s.pc task) = true := by
    rw [hpc]
    rfl
  have hfree := (hl.release_free hcritical hnull).1
  have hreturned := h.returned
  rw [hl.owner task hcritical, hpc] at hreturned
  refine
    { content := h.content
      returned := ?_
      staged := ?_ }
  · show s.reads = returned ++ unreturned (Function.update s.pc task none
      (s.channel.queueLock.release task).tcbPointer)
    rw [hfree, Function.update_of_ne hnull.symm, hl.null, hword]
    exact hreturned.trans (List.append_nil _).symm
  · intro other
    show Staged s.channel.queue (Function.update s.pc task none other)
    by_cases hother : other = task
    · rw [hother, Function.update_self]
      trivial
    · rw [Function.update_of_ne hother]
      exact h.staged other

/-- **Every step keeps the order.** -/
theorem Ordered.advance (h : Ordered s) (hl : Locked s) (hc : Counted k s)
    (hpc : s.pc task = some (function, pc)) (hs : s.advance task stack function pc = some s') :
    Ordered s' := by
  cases pc <;> simp only [ChannelSystem.advance] at hs
  case takeToken =>
    split at hs <;> cases hs
    · obtain ⟨hlock, hqueue⟩ := take_frame ‹_›
      exact h.move hpc _ rfl hlock hqueue rfl rfl rfl rfl (by simp)
    · exact h.move hpc _ rfl rfl rfl rfl rfl rfl rfl (by simp)
  case takeWait =>
    cases hs
    exact h.move hpc _ rfl rfl rfl rfl rfl rfl rfl (by simp)
  case lock =>
    obtain ⟨queueLock, hacquire, rfl⟩ := Option.map_eq_some_iff.mp hs
    exact h.acquire hl hpc hacquire
  case check =>
    -- with a token the queue has a word or a place, and does not refuse
    rw [if_neg (by simp [hc.not_refused hpc rfl])] at hs
    cases hs
    exact h.move hpc _ rfl rfl rfl rfl rfl rfl rfl (by simp)
  case access =>
    cases hs
    exact h.access hl hpc
  case advance data =>
    cases hs
    exact h.advanceRing hl hc hpc
  case giveToken data =>
    split at hs <;> cases hs
    · obtain ⟨hlock, hqueue⟩ := give_frame ‹_›
      exact h.move hpc _ rfl hlock hqueue rfl rfl rfl rfl (by simp)
    · exact h.move hpc _ rfl rfl rfl rfl rfl rfl rfl (by simp)
  case giveWait data =>
    cases hs
    exact h.move hpc _ rfl rfl rfl rfl rfl rfl rfl (by simp)
  case unlock data =>
    -- a read hands its word on, a write has nothing to return
    cases function <;> cases hs
    · exact h.release hl hpc (List.append_nil _).symm
    · exact h.release hl hpc rfl

theorem Ordered.step {e : ChannelEvent} (h : Ordered s) (hl : Locked s) (hc : Counted k s)
    (hs : s.step e = some s') : Ordered s' := by
  rcases step_cases hs with ⟨task, function, rfl, -, hpc, rfl⟩ |
    ⟨task, stack, function, pc, rfl, hpc, hs⟩
  · refine h.still _ rfl rfl rfl rfl rfl rfl ?_ ?_
    · rw [hpc]
      cases function <;> rfl
    · cases function <;> trivial
  · exact h.advance hl hc hpc hs

end Steps

/-- **Delivery is first in, first out, without loss and without duplicates**: the
words written are the words read and then the content of the ring. Every word
read is returned, in this order; the last is still with the owner of the lock
until it releases it. -/
theorem channel_fifo {k : Nat} {s : ChannelSystem} (hk : k < 4294967296)
    (h : (channelMachine k).Reach s) :
    s.written = s.reads ++ s.channel.queue.content ∧
      s.reads = s.returned ++ unreturned (s.pc s.channel.queueLock.tcbPointer) ∧
      ((∀ task, critical (s.pc task) = false) → s.reads = s.returned) := by
  have hinv : Counted k s ∧ Locked s ∧ Ordered s := by
    refine h.invariant (P := fun s => Counted k s ∧ Locked s ∧ Ordered s) ?_ ?_
    · intro s hs
      exact ⟨Counted.init hk hs, Locked.init hs, Ordered.init hs⟩
    · rintro s e s' ⟨hc, hl, ho⟩ hstep
      exact ⟨hc.step hstep, hl.step hstep, ho.step hl hc hstep⟩
  obtain ⟨hc, hl, ho⟩ := hinv
  refine ⟨ho.content, ho.returned, ?_⟩
  intro hnobody
  have hfree : s.channel.queueLock.tcbPointer = NULL := by
    by_contra hheld
    have hcritical := (hl.held hheld).2
    rw [hnobody] at hcritical
    cases hcritical
  rw [ho.returned, hfree, hl.null]
  exact List.append_nil _

theorem channel_fifo_secondWord : ∃ s, (channelMachine 1).Reach s ∧ s.written = [7, 8] ∧
    s.returned = [7] ∧ s.channel.queue.content = [8] ∧
    s.written = s.reads ++ s.channel.queue.content := by
  obtain ⟨s, hrun, hwritten, hreturned, hcontent⟩ := Lib.Machine.exists_run
    (M := channelMachine 1)
    (P := fun s => s.written = [7, 8] ∧ s.returned = [7] ∧ s.channel.queue.content = [8])
    (s := samplePooled) (e := sampleTraffic) (by decide +kernel)
  have hreach := (Lib.Machine.Reach.init samplePooled_fresh).run hrun
  exact ⟨s, hreach, hwritten, hreturned, hcontent, (channel_fifo (by decide) hreach).1⟩

end ChannelSystem

end DocetOS
