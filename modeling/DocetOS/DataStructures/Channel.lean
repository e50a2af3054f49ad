import DocetOS.DataStructures.Mutex
import DocetOS.DataStructures.Queue
import DocetOS.DataStructures.Semaphore
import DocetOS.Lib.Census
import DocetOS.Lib.Machine

/-!
# Channels (`channel.c`)

`OS_channel_t`, and runs of any number of tasks that write to a channel and read
from it. Taking or giving a token and acquiring or releasing `queueLock` are
single steps; the queue functions in between are taken apart (the test, the
access to the ring, the move of the pointer), so that only the lock keeps
tasks from coming between them.

A task that has to wait for a token is at `takeWait` or `giveWait`, inside
`OS_wait`, and may be woken at any time. A task that has to wait for the lock
takes no step.

`written` and `reads` are the words of the writes and reads in the order of
their critical sections, whatever the queue did with them; `returned` are the
words that `channel_read` has returned.
-/

namespace DocetOS

/-- `OS_channel_t` with what its pointers point to. -/
structure Channel where
  capacity : Nat
  channelID : Nat
  readTokens : Semaphore
  writeTokens : Semaphore
  queueLock : Mutex
  queue : Queue

/-- `new_channel`; the block of the queue held `memory`. -/
def newChannel (channelID capacity : Nat) (memory : Nat → Nat) : Channel where
  capacity := capacity
  channelID := channelID
  readTokens := semaphoreInit 0 capacity
  writeTokens := semaphoreInit capacity capacity
  queueLock := initMutex
  queue := newQueue capacity memory

/-- `channel_init`: the lock and the ring stay as they are. -/
def channelInit (channel : Channel) (channelID capacity : Nat) : Channel :=
  { channel with
      capacity
      channelID
      readTokens := { availableTokens := 0, maxTokens := capacity }
      writeTokens := { availableTokens := capacity, maxTokens := capacity }
      queue :=
        { channel.queue with
            readPointer := 0
            writePointer := 0
            maxCapacity := capacity
            readPointer_le := Nat.zero_le _
            writePointer_le := Nat.zero_le _ } }

/-- The functions of `channel.c` that tasks call. -/
inductive ChannelCall where
  | write (word : Nat)
  | read
deriving DecidableEq, Repr

/-- Where a task is in `channel_write` or `channel_read`. `data` is the word
the call writes or has read. -/
inductive ChannelPc where
  | takeToken
  /-- In the `OS_wait` of `OS_semaphore_acquire_token`. -/
  | takeWait
  | lock
  /-- The test of the queue function. -/
  | check
  /-- Its access to the ring. -/
  | access
  /-- Its move of the pointer. -/
  | advance (data : Nat)
  | giveToken (data : Nat)
  /-- In the `OS_wait` of `OS_semaphore_release_token`. -/
  | giveWait (data : Nat)
  | unlock (data : Nat)
deriving DecidableEq, Repr

structure ChannelSystem where
  channel : Channel
  pc : Nat → Option (ChannelCall × ChannelPc)
  written : List Nat
  reads : List Nat
  returned : List Nat

inductive ChannelEvent where
  | call (task : Nat) (function : ChannelCall)
  /-- `task` takes its next step; `stack` is what an uninitialised variable of it
  holds. -/
  | step (task stack : Nat)

namespace ChannelCall

/-- Take a token at the start of a call: a write needs room, a read needs a word. -/
def take (channel : Channel) : ChannelCall → Option Channel
  | .write _ => channel.writeTokens.acquireToken.map fun writeTokens => { channel with writeTokens }
  | .read => channel.readTokens.acquireToken.map fun readTokens => { channel with readTokens }

/-- Give a token to the other side. -/
def give (channel : Channel) : ChannelCall → Option Channel
  | .write _ => channel.readTokens.releaseToken.map fun readTokens => { channel with readTokens }
  | .read => channel.writeTokens.releaseToken.map fun writeTokens => { channel with writeTokens }

end ChannelCall

namespace ChannelSystem

/-- The task goes on to a place, or returns. -/
def goTo (s : ChannelSystem) (task : Nat) (place : Option (ChannelCall × ChannelPc)) :
    ChannelSystem :=
  { s with pc := Function.update s.pc task place }

/-- Record the word of a call whose critical section has used the queue. -/
def record (s : ChannelSystem) (function : ChannelCall) (data : Nat) : ChannelSystem :=
  match function with
  | .write word => { s with written := s.written ++ [word] }
  | .read => { s with reads := s.reads ++ [data] }

/-- The queue function that `function` calls refuses. -/
def refused (channel : Channel) : ChannelCall → Bool
  | .write _ => channel.queue.isFull
  | .read => channel.queue.isEmpty

/-- The access to the ring: the channel, and the word written or read. -/
def accessRing (channel : Channel) : ChannelCall → Channel × Nat
  | .write word => ({ channel with queue := channel.queue.store word }, word)
  | .read => (channel, channel.queue.load)

/-- The move of the pointer. -/
def advanceRing (channel : Channel) : ChannelCall → Channel
  | .write _ => { channel with queue := channel.queue.advanceWrite }
  | .read => { channel with queue := channel.queue.advanceRead }

/-- The next step of `task`, which is in `function` at `pc`. -/
def advance (s : ChannelSystem) (task stack : Nat) (function : ChannelCall) (pc : ChannelPc) :
    Option ChannelSystem :=
  match pc with
  | .takeToken =>
    match function.take s.channel with
    | some channel => some ({ s with channel }.goTo task (some (function, .lock)))
    | none => some (s.goTo task (some (function, .takeWait)))
  | .takeWait => some (s.goTo task (some (function, .takeToken)))
  | .lock =>
    (s.channel.queueLock.acquire task).map fun queueLock =>
      { s with channel := { s.channel with queueLock } }.goTo task (some (function, .check))
  | .check =>
    -- the status code of the queue function is ignored
    if refused s.channel function then
      some ((s.record function stack).goTo task (some (function, .giveToken stack)))
    else some (s.goTo task (some (function, .access)))
  | .access =>
    let (channel, data) := accessRing s.channel function
    some ({ s with channel }.goTo task (some (function, .advance data)))
  | .advance data =>
    some (({ s with channel := advanceRing s.channel function }.record function data).goTo task
      (some (function, .giveToken data)))
  | .giveToken data =>
    match function.give s.channel with
    | some channel => some ({ s with channel }.goTo task (some (function, .unlock data)))
    | none => some (s.goTo task (some (function, .giveWait data)))
  | .giveWait data => some (s.goTo task (some (function, .giveToken data)))
  | .unlock data =>
    some ({ s with
        channel := { s.channel with queueLock := s.channel.queueLock.release task }
        returned :=
          match function with
          | .write _ => s.returned
          | .read => s.returned ++ [data] }.goTo task none)

def step (s : ChannelSystem) : ChannelEvent → Option ChannelSystem
  | .call task function =>
    if task = NULL then none
    else
      match s.pc task with
      | none => some (s.goTo task (some (function, .takeToken)))
      | some _ => none
  | .step task stack =>
    match s.pc task with
    | none => none
    | some (function, pc) => s.advance task stack function pc

/-- A channel of capacity `k` as `new_channel` makes it, or one that nobody uses,
reset by `channel_init`, whose queue was allocated with room for `k` words. -/
def Opened (k : Nat) (channel : Channel) : Prop :=
  (∃ channelID memory, channel = newChannel channelID k memory) ∨
    ∃ pooled channelID, channel = channelInit pooled channelID k ∧
      k ≤ pooled.queue.memoryEnd ∧ pooled.queueLock.tcbPointer = NULL ∧
      pooled.queueLock.counter = 0

/-- Nobody is in a call, and no history. -/
structure Fresh (k : Nat) (s : ChannelSystem) : Prop where
  channel : Opened k s.channel
  pc : ∀ task, s.pc task = none
  written : s.written = []
  reads : s.reads = []
  returned : s.returned = []

end ChannelSystem

/-- The runs on a channel of capacity `k`. -/
def channelMachine (k : Nat) : Lib.Machine ChannelSystem ChannelEvent where
  init := ChannelSystem.Fresh k
  step := ChannelSystem.step

end DocetOS
