import DocetOS.OS.ChannelManagerRuns
import DocetOS.OS.MemclusterFlag
import DocetOS.OS.MemclusterRequests

/-!
# The start of the system

`OS_init` makes the tables, the heaps and the channels of the system out of blocks of the
memory cluster. The functions here are the allocations of the `new_*` functions, in the
order of the code; what they write into the memory is in the models of the structures.

- `osInit_returns_iff`: `OS_init` returns exactly if enough blocks of each size were carved
  out of the array. Otherwise it searches for a block forever.
- `osInit_apart`: what it has made is apart: the structures have words of their own, and
  the channels have different addresses, as the channel manager relies on.
- `destroyChannel_returns_iff`, `destroyChannel_restores`: whatever the tasks do with the
  memory in the meantime, `destroy_channel` returns when its locks can be had, and the pools
  have back what the channel took.
-/

namespace DocetOS

open Lib Memcluster

abbrev HASHTABLE_WORDS : Nat := 5
abbrev HASHTABLE_VALUE_WORDS : Nat := 3
abbrev HEAP_WORDS : Nat := 6
abbrev SIZEOF_HEAP_NODE : Nat := 8
abbrev MUTEX_WORDS : Nat := 4
abbrev SEMAPHORE_WORDS : Nat := 2
abbrev QUEUE_WORDS : Nat := 5
abbrev CHANNEL_WORDS : Nat := 6

/-- The blocks of a heap; without a lookup table the pointer to it is `NULL`. -/
structure HeapMemory where
  heapStruct : Nat
  nodeArray : Nat
  nodeContentIndexHashTable : Nat
deriving DecidableEq, Repr

def HeapMemory.pointers (h : HeapMemory) : List Nat :=
  h.heapStruct :: h.nodeArray :: (toPtr h.nodeContentIndexHashTable).toList

/-- The blocks of a channel. -/
structure ChannelMemory where
  channel : Nat
  readTokens : Nat
  writeTokens : Nat
  queueLock : Nat
  queue : Nat
deriving DecidableEq, Repr

def ChannelMemory.pointers (c : ChannelMemory) : List Nat :=
  [c.channel, c.readTokens, c.writeTokens, c.queueLock, c.queue]

/-- The blocks in the order in which `destroy_channel` frees them. -/
def ChannelMemory.freeOrder (c : ChannelMemory) : List Nat :=
  [c.writeTokens, c.readTokens, c.queueLock, c.queue, c.channel]

/-- The blocks of the scheduler. -/
structure SchedulerMemory where
  waitingTasksHashTableReasonAsKey : Nat
  waitingTasksHashTableTcbAsKey : Nat
  activeTasksHashTable : Nat
  tasksInSchedulerHeapHashTable : Nat
  sleepingTasksHashTable : Nat
  schedulerHeap : HeapMemory
  sleepHeap : HeapMemory
deriving DecidableEq, Repr

def SchedulerMemory.pointers (s : SchedulerMemory) : List Nat :=
  [s.waitingTasksHashTableReasonAsKey, s.waitingTasksHashTableTcbAsKey, s.activeTasksHashTable,
    s.tasksInSchedulerHeapHashTable, s.sleepingTasksHashTable] ++
    (s.schedulerHeap.pointers ++ s.sleepHeap.pointers)

/-- The blocks of the channel manager. -/
structure ChannelManagerMemory where
  channelHashTable : Nat
  channelStatusHashTable : Nat
  channels : List ChannelMemory
deriving DecidableEq, Repr

def ChannelManagerMemory.pointers (c : ChannelManagerMemory) : List Nat :=
  c.channelHashTable :: c.channelStatusHashTable :: c.channels.flatMap ChannelMemory.pointers

/-- The blocks of the system. -/
structure OSMemory where
  scheduler : SchedulerMemory
  channelManager : ChannelManagerMemory
deriving DecidableEq, Repr

def OSMemory.pointers (m : OSMemory) : List Nat :=
  m.scheduler.pointers ++ m.channelManager.pointers

namespace Boot

/-- Code that calls the memory cluster; it has no result where a call does not return. -/
abbrev Program := StateT LeaseSystem Option

/-- The words that `new_hashtable` asks for. -/
def hashtableWords (capacity numberOfBuckets : Nat) : Nat :=
  wrap (HASHTABLE_WORDS + capacity * HASHTABLE_VALUE_WORDS + numberOfBuckets)

/-- The words of the nodes that `new_heap` asks for. -/
def nodeArrayWords (maxNumberOfHeapNodes : Nat) : Nat :=
  wrap (maxNumberOfHeapNodes * SIZEOF_HEAP_NODE) / 4

/-- The words that `new_queue` asks for. -/
def queueWords (capacity : Nat) : Nat := wrap (QUEUE_WORDS + (capacity + 1))

section Programs

variable (fuel caller : Nat)

/-- `OS_alloc`. -/
def osAlloc (words : Nat) : Program Nat := fun s => (s.alloc fuel caller words).map Prod.swap

/-- `OS_free`. -/
def osFree (p : Nat) : Program Unit := fun s =>
  (s.step (.deallocate fuel caller p)).map fun s => ((), s)

/-- `new_hashtable`. -/
def newHashtable (capacity numberOfBuckets : Nat) : Program Nat :=
  osAlloc fuel caller (hashtableWords capacity numberOfBuckets)

/-- `new_heap`. -/
def newHeap (maxNumberOfHeapNodes : Nat) (enableQuickNodeContentIndexLookup : Bool) :
    Program HeapMemory := do
  let heapStruct ← osAlloc fuel caller HEAP_WORDS
  let nodeArray ← osAlloc fuel caller (nodeArrayWords maxNumberOfHeapNodes)
  if enableQuickNodeContentIndexLookup then
    let table ← newHashtable fuel caller maxNumberOfHeapNodes
      CONTENT_INDEX_LOOKUP_HASHTABLE_BUCKETS_NUM
    return ⟨heapStruct, nodeArray, table⟩
  else return ⟨heapStruct, nodeArray, NULL⟩

/-- `new_mutex`. -/
def newMutex : Program Nat := osAlloc fuel caller MUTEX_WORDS

/-- `new_semaphore`. -/
def newSemaphore : Program Nat := osAlloc fuel caller SEMAPHORE_WORDS

/-- `new_queue`. -/
def newQueue (capacity : Nat) : Program Nat :=
  if capacity = 0 then return NULL else osAlloc fuel caller (queueWords capacity)

/-- `new_channel`: there is no channel when one of its parts has no memory. -/
def newChannel (capacity : Nat) : Program (Option ChannelMemory) := do
  let channel ← osAlloc fuel caller CHANNEL_WORDS
  if channel = NULL then return none
  else
    let readTokens ← newSemaphore fuel caller
    let writeTokens ← newSemaphore fuel caller
    if readTokens = NULL ∨ writeTokens = NULL then return none
    else
      let queueLock ← newMutex fuel caller
      if queueLock = NULL then return none
      else
        let queue ← newQueue fuel caller capacity
        if queue = NULL then return none
        else return some { channel, readTokens, writeTokens, queueLock, queue }

/-- `destroy_channel`. -/
def destroyChannel (c : ChannelMemory) : Program Unit := do
  osFree fuel caller c.writeTokens
  osFree fuel caller c.readTokens
  osFree fuel caller c.queueLock
  osFree fuel caller c.queue
  osFree fuel caller c.channel

/-- `initialize_scheduler`. -/
def initializeScheduler (sizeOfHeapNodeArray : Nat) : Program SchedulerMemory := do
  let table := newHashtable fuel caller WAIT_HASHTABLE_CAPACITY NUM_BUCKETS_FOR_WAIT_HASHTABLE
  let reasonAsKey ← table
  let tcbAsKey ← table
  let active ← table
  let inSchedulerHeap ← table
  let sleeping ← table
  let schedulerHeap ← newHeap fuel caller sizeOfHeapNodeArray true
  let sleepHeap ← newHeap fuel caller sizeOfHeapNodeArray false
  return ⟨reasonAsKey, tcbAsKey, active, inSchedulerHeap, sleeping, schedulerHeap, sleepHeap⟩

/-- The loop of `initialize_channelManager`. It writes to a channel without a test, so it
goes on only with a channel. -/
def allocateChannels : Nat → Program (List ChannelMemory)
  | 0 => return []
  | i + 1 => do
    let channels ← allocateChannels i
    match ← newChannel fuel caller MAX_ALLOWED_CHANNEL_CAPACITY with
    | some channel => return channels ++ [channel]
    | none => failure

/-- `initialize_channelManager`. -/
def initializeChannelManager (maxNumberOfChannels : Nat) : Program ChannelManagerMemory := do
  let table := newHashtable fuel caller maxNumberOfChannels NUM_BUCKETS_FOR_CHANNELS_HASHTABLE
  let channelHashTable ← table
  let channelStatusHashTable ← table
  let channels ← allocateChannels fuel caller maxNumberOfChannels
  return { channelHashTable, channelStatusHashTable, channels }

end Programs

/-- What `OS_init` calls after `memory_cluster_init`, when there is no current task. -/
def initStructures (fuel : Nat) : Program OSMemory := do
  let scheduler ← initializeScheduler fuel NULL 16
  let channelManager ← initializeChannelManager fuel NULL 16
  return { scheduler, channelManager }

/-- `OS_init` on an array of words. -/
def osInit (fuel : Nat) (previous : Memcluster) (memory memorySize : Nat) :
    Option (OSMemory × LeaseSystem) :=
  initStructures fuel (freshLeases previous memory memorySize)

/-! ## The requests of a program -/

section Makes

variable {c₀ : Memcluster} {start stop : Nat} {blocks : List Nat} {fuel caller : Nat}
  {α β : Type} {program : Program α} {next : α → Program β} {requests requests' : List Nat}
  {post : α → List Nat → Prop} {post' : β → List Nat → Prop}

/-- The blocks are accounted for, and the caller can have every lock. -/
structure Ready (c₀ : Memcluster) (start stop : Nat) (blocks : List Nat) (caller : Nat)
    (s : LeaseSystem) : Prop where
  carved : Carved c₀ start stop blocks s
  locks : s.cluster.LocksAvailable caller

/-- The program makes these requests, in this order, and returns when they have all been
served. The result and the pointers it was given are as `post` says. -/
def Makes (c₀ : Memcluster) (start stop : Nat) (blocks : List Nat) (fuel caller : Nat)
    (program : Program α) (requests : List Nat) (post : α → List Nat → Prop) : Prop :=
  ∀ s, Ready c₀ start stop blocks caller s →
    ((s.allocAll fuel caller requests).isSome = true → (program s).isSome = true) ∧
    ∀ a s', program s = some (a, s') → Ready c₀ start stop blocks caller s' ∧
      ∃ ps, s.allocAll fuel caller requests = some (s', ps) ∧ NULL ∉ ps ∧ post a ps

theorem Makes.pure {a : α} (h : post a []) :
    Makes c₀ start stop blocks fuel caller (Pure.pure a : Program α) [] post := by
  intro s hs
  refine ⟨fun _ => rfl, ?_⟩
  rintro _ _ ⟨⟩
  exact ⟨hs, [], rfl, List.not_mem_nil, h⟩

theorem Makes.alloc {words : Nat}
    (hclass : (sizeClass words).isSome = true) :
    Makes c₀ start stop blocks fuel caller (osAlloc fuel caller words) [words]
      fun p ps => ps = [p] := by
  intro s hs
  have hall : ∀ s' p, s.alloc fuel caller words = some (s', p) →
      s.allocAll fuel caller [words] = some (s', [p]) := by
    intro s' p halloc
    simp only [LeaseSystem.allocAll, halloc, Option.bind_eq_bind, Option.bind_some,
      Option.pure_def]
  constructor
  · intro hsome
    obtain ⟨s', p, halloc, -⟩ := LeaseSystem.allocAll_cons_isSome.mp hsome
    simp only [osAlloc, halloc, Option.map_some, Option.isSome_some]
  · intro p s' hp
    obtain ⟨⟨_, _⟩, halloc, heq⟩ := Option.map_eq_some_iff.mp hp
    cases heq
    refine ⟨⟨hs.carved.step (LeaseSystem.alloc_step halloc),
      LeaseSystem.alloc_locks hs.carved hs.locks halloc⟩, [_], hall _ _ halloc, ?_, rfl⟩
    rw [List.mem_singleton]
    exact (LeaseSystem.alloc_ne_null hs.carved hs.locks hclass halloc).symm

/-- One program after the other makes the requests of both. -/
theorem Makes.bind (h : Makes c₀ start stop blocks fuel caller program requests post)
    (hnext : ∀ a ps, NULL ∉ ps → post a ps →
      Makes c₀ start stop blocks fuel caller (next a) requests' fun b ps' => post' b (ps ++ ps')) :
    Makes c₀ start stop blocks fuel caller (program >>= next) (requests ++ requests') post' := by
  intro s hs
  obtain ⟨hreturns, hresult⟩ := h s hs
  have hrun : (program >>= next) s = (program s).bind fun r => next r.1 r.2 := rfl
  rw [hrun, LeaseSystem.allocAll_append]
  constructor
  · intro hsome
    obtain ⟨r, hboth⟩ := Option.isSome_iff_exists.mp hsome
    obtain ⟨⟨s₁, ps⟩, hfirst, hrest⟩ := Option.bind_eq_some_iff.mp hboth
    -- the first program returns as its requests are served, and the second starts where it stops
    obtain ⟨⟨a, s₁'⟩, hprogram⟩ :=
      Option.isSome_iff_exists.mp (hreturns (Option.isSome_iff_exists.mpr ⟨_, hfirst⟩))
    obtain ⟨hs₁, ps', hfirst', hnull, hpost⟩ := hresult a s₁' hprogram
    rw [hfirst] at hfirst'
    cases hfirst'
    rw [hprogram]
    refine ((hnext a ps hnull hpost) s₁ hs₁).1 ?_
    obtain ⟨r', hrest', -⟩ := Option.map_eq_some_iff.mp hrest
    exact Option.isSome_iff_exists.mpr ⟨r', hrest'⟩
  · intro b s' hboth
    obtain ⟨⟨a, s₁⟩, hprogram, hrest⟩ := Option.bind_eq_some_iff.mp hboth
    obtain ⟨hs₁, ps, hfirst, hnull, hpost⟩ := hresult a s₁ hprogram
    obtain ⟨hs', ps', hrest', hnull', hpost'⟩ := ((hnext a ps hnull hpost) s₁ hs₁).2 b s' hrest
    refine ⟨hs', ps ++ ps', ?_, ?_, hpost'⟩
    · rw [hfirst, Option.bind_some, hrest']
      rfl
    · rw [List.mem_append]
      exact not_or.mpr ⟨hnull, hnull'⟩

/-- A program that makes no further requests. -/
theorem Makes.bind_pure (h : Makes c₀ start stop blocks fuel caller program requests post)
    (hnext : ∀ a ps, NULL ∉ ps → post a ps → ∃ b, next a = Pure.pure b ∧ post' b ps) :
    Makes c₀ start stop blocks fuel caller (program >>= next) requests post' := by
  rw [← List.append_nil requests]
  refine h.bind ?_
  intro a ps hnull hpost
  obtain ⟨b, heq, hb⟩ := hnext a ps hnull hpost
  rw [heq]
  exact .pure (by rwa [List.append_nil])

theorem Makes.alloc_bind {words : Nat} {next : Nat → Program β}
    (hclass : (sizeClass words).isSome = true)
    (hnext : ∀ p, p ≠ NULL →
      Makes c₀ start stop blocks fuel caller (next p) requests' fun b ps => post' b (p :: ps)) :
    Makes c₀ start stop blocks fuel caller (osAlloc fuel caller words >>= next)
      (words :: requests') post' := by
  refine (Makes.alloc hclass).bind ?_
  rintro p ps hnull rfl
  exact hnext p (Ne.symm (List.ne_of_not_mem_cons hnull))

end Makes

/-! ## The requests of `OS_init` -/

section Init

variable {c₀ : Memcluster} {start stop : Nat} {blocks : List Nat} {fuel caller : Nat}

/-- What a channel asks for. -/
def channelRequests (capacity : Nat) : List Nat :=
  [CHANNEL_WORDS, SEMAPHORE_WORDS, SEMAPHORE_WORDS, MUTEX_WORDS, queueWords capacity]

/-- What a heap asks for. -/
def heapRequests (maxNumberOfHeapNodes : Nat) (lookup : Bool) : List Nat :=
  [HEAP_WORDS, nodeArrayWords maxNumberOfHeapNodes] ++
    if lookup then
      [hashtableWords maxNumberOfHeapNodes CONTENT_INDEX_LOOKUP_HASHTABLE_BUCKETS_NUM]
    else []

def schedulerRequests (sizeOfHeapNodeArray : Nat) : List Nat :=
  List.replicate 5 (hashtableWords WAIT_HASHTABLE_CAPACITY NUM_BUCKETS_FOR_WAIT_HASHTABLE) ++
    (heapRequests sizeOfHeapNodeArray true ++ heapRequests sizeOfHeapNodeArray false)

def channelManagerRequests (maxNumberOfChannels : Nat) : List Nat :=
  List.replicate 2 (hashtableWords maxNumberOfChannels NUM_BUCKETS_FOR_CHANNELS_HASHTABLE) ++
    (List.replicate maxNumberOfChannels (channelRequests MAX_ALLOWED_CHANNEL_CAPACITY)).flatten

theorem newChannel_makes {capacity : Nat} (hpos : capacity ≠ 0)
    (hqueue : (sizeClass (queueWords capacity)).isSome = true) :
    Makes c₀ start stop blocks fuel caller (newChannel fuel caller capacity)
      (channelRequests capacity)
      fun c ps => ∃ channel, c = some channel ∧ ps = channel.pointers := by
  refine .alloc_bind (by decide) fun channel hchannel => ?_
  rw [if_neg hchannel]
  refine .alloc_bind (by decide) fun readTokens hread => ?_
  refine .alloc_bind (by decide) fun writeTokens hwrite => ?_
  rw [if_neg (not_or.mpr ⟨hread, hwrite⟩)]
  refine .alloc_bind (by decide) fun queueLock hlock => ?_
  rw [if_neg hlock, newQueue, if_neg hpos]
  refine .alloc_bind hqueue fun queue hne => ?_
  rw [if_neg hne]
  exact .pure ⟨⟨channel, readTokens, writeTokens, queueLock, queue⟩, rfl, rfl⟩

theorem newHeap_makes {n : Nat} {lookup : Bool}
    (hnodes : (sizeClass (nodeArrayWords n)).isSome = true)
    (htable : lookup = true →
      (sizeClass (hashtableWords n CONTENT_INDEX_LOOKUP_HASHTABLE_BUCKETS_NUM)).isSome = true) :
    Makes c₀ start stop blocks fuel caller (newHeap fuel caller n lookup) (heapRequests n lookup)
      fun h ps => ps = h.pointers := by
  refine .alloc_bind (by decide) fun heapStruct _ => ?_
  refine .alloc_bind hnodes fun nodeArray _ => ?_
  cases lookup with
  | false => exact .pure rfl
  | true =>
    refine .alloc_bind (htable rfl) fun table hne => .pure ?_
    simp only [HeapMemory.pointers, toPtr_of_ne hne, Option.toList_some]

/-- `n` channels, one after the other. -/
theorem allocateChannels_makes (n : Nat) :
    Makes c₀ start stop blocks fuel caller (allocateChannels fuel caller n)
      (List.replicate n (channelRequests MAX_ALLOWED_CHANNEL_CAPACITY)).flatten
      fun channels ps => channels.length = n ∧ ps = channels.flatMap ChannelMemory.pointers := by
  induction n with
  | zero => exact .pure ⟨rfl, rfl⟩
  | succ n ih =>
    rw [List.replicate_succ', List.flatten_append, List.flatten_singleton]
    refine ih.bind ?_
    rintro channels ps - ⟨hlength, rfl⟩
    refine (newChannel_makes (by decide) (by decide)).bind_pure ?_
    rintro _ ps - ⟨channel, rfl, rfl⟩
    refine ⟨channels ++ [channel], rfl, ?_, ?_⟩
    · rw [List.length_append, hlength, List.length_singleton]
    · rw [List.flatMap_append, List.flatMap_singleton]

/-- The tables and the heaps of the scheduler. -/
theorem initializeScheduler_makes :
    Makes c₀ start stop blocks fuel caller (initializeScheduler fuel caller 16)
      (schedulerRequests 16) fun s ps => ps = s.pointers := by
  refine .alloc_bind (by decide) fun reasonAsKey _ => ?_
  refine .alloc_bind (by decide) fun tcbAsKey _ => ?_
  refine .alloc_bind (by decide) fun active _ => ?_
  refine .alloc_bind (by decide) fun inSchedulerHeap _ => ?_
  refine .alloc_bind (by decide) fun sleeping _ => ?_
  refine (newHeap_makes (by decide) fun _ => by decide).bind ?_
  rintro schedulerHeap ps - rfl
  refine (newHeap_makes (by decide) fun h => by cases h).bind_pure ?_
  rintro sleepHeap ps - rfl
  exact ⟨_, rfl, rfl⟩

theorem initializeChannelManager_makes :
    Makes c₀ start stop blocks fuel caller (initializeChannelManager fuel caller 16)
      (channelManagerRequests 16) fun m ps => m.channels.length = 16 ∧ ps = m.pointers := by
  refine .alloc_bind (by decide) fun channelHashTable _ => ?_
  refine .alloc_bind (by decide) fun channelStatusHashTable _ => ?_
  refine (allocateChannels_makes 16).bind_pure ?_
  rintro channels ps - ⟨hlength, rfl⟩
  exact ⟨_, rfl, hlength, rfl⟩

/-- What `OS_init` asks for. -/
def osRequests : List Nat := schedulerRequests 16 ++ channelManagerRequests 16

theorem initStructures_makes :
    Makes c₀ start stop blocks fuel NULL (initStructures fuel) osRequests
      fun m ps => m.channelManager.channels.length = 16 ∧ ps = m.pointers := by
  refine initializeScheduler_makes.bind ?_
  rintro scheduler ps - rfl
  refine initializeChannelManager_makes.bind_pure ?_
  rintro channelManager ps - ⟨hlength, rfl⟩
  exact ⟨_, rfl, hlength, rfl⟩

/-- The cluster after `memory_cluster_init`; the lock of its hashtable is a static
variable. -/
theorem fresh_ready {previous : Memcluster} {memory memorySize : Nat} (hn : 1 ≤ memorySize)
    (hfit : memory + 4 * memorySize ≤ 4294967296)
    (hlock : previous.hashtableLock.tcbPointer = NULL) (caller : Nat) :
    ∃ stop ≤ memory + 4 * memorySize,
      Ready (memoryClusterInit previous memory memorySize).1 memory stop
        (carvedBlocks previous memory memorySize) caller
        (freshLeases previous memory memorySize) := by
  obtain ⟨stop, hstop, hreach⟩ := reach_leased hn hfit previous
  obtain ⟨free, bucket, hleased⟩ := hreach _ (.init rfl)
  refine ⟨stop, hstop, ⟨⟨free, bucket, hleased⟩, fun _ _ => rfl⟩, ?_⟩
  have hsame := SameLocks.carve ((alignArray memory memorySize).2 + NUMBER_OF_POOLS) 0 0
    (alignArray memory memorySize).1 (alignArray memory memorySize).2
    { previous with
      clusterInUseFLAG := 0
      memory := clearWords memorySize memory previous.memory
      poolLocks := fun _ => initMutex
      pools := emptyPools } []
  constructor
  · intro i _
    exact .inl (congrArg Mutex.tcbPointer (congrFun hsame.poolLocks i))
  · exact .inl ((congrArg Mutex.tcbPointer hsame.hashtableLock).trans hlock)

/-- The blocks that `OS_init` needs: 92, of which 26 have 32 words or more, 8 have 64 or
more and 5 have 128 or more. -/
def EnoughBlocks (free : Nat → Nat) : Prop :=
  92 ≤ BestFit.above NUMBER_OF_POOLS free 0 ∧ 26 ≤ BestFit.above NUMBER_OF_POOLS free 1 ∧
    8 ≤ BestFit.above NUMBER_OF_POOLS free 2 ∧ 5 ≤ BestFit.above NUMBER_OF_POOLS free 3

theorem osRequests_fit_iff (free : Nat → Nat) :
    BestFit.Fits NUMBER_OF_POOLS free (osRequests.filterMap sizeClass) ↔
      EnoughBlocks free := by
  have hclasses : osRequests.filterMap sizeClass = List.replicate 5 3 ++ [0, 1, 2, 0, 1, 2, 2] ++
      (List.replicate 16 [0, 0, 0, 0, 1]).flatten := by decide
  rw [hclasses]
  constructor
  · intro h
    exact ⟨h 0, h 1, h 2, h 3⟩
  · rintro ⟨h0, h1, h2, h3⟩ i
    rcases Nat.lt_or_ge i 4 with hi | hi
    · interval_cases i <;> assumption
    · refine le_trans (Nat.le_of_eq ?_) (Nat.zero_le _)
      unfold BestFit.wanted
      rw [List.countP_eq_zero]
      intro c hc
      have hle : c ≤ 3 := by
        revert c
        decide
      rw [decide_eq_true_eq]
      omega

end Init

/-! ## The results -/

section Results

variable {previous : Memcluster} {memory memorySize fuel : Nat}

/-- It returns if all that it asks for is served. -/
theorem osInit_serves_iff (hn : 1 ≤ memorySize) (hfit : memory + 4 * memorySize ≤ 4294967296)
    (hlock : previous.hashtableLock.tcbPointer = NULL) (fuel : Nat) :
    (osInit fuel previous memory memorySize).isSome = true ↔
      ((freshLeases previous memory memorySize).allocAll fuel NULL osRequests).isSome = true := by
  obtain ⟨stop, -, hready⟩ := fresh_ready hn hfit hlock NULL
  obtain ⟨hreturns, hresult⟩ := initStructures_makes _ hready
  refine ⟨?_, hreturns⟩
  intro hsome
  obtain ⟨⟨m, s⟩, hm⟩ := Option.isSome_iff_exists.mp hsome
  obtain ⟨-, ps, hall, -⟩ := hresult m s hm
  exact Option.isSome_iff_exists.mpr ⟨_, hall⟩

theorem osInit_isSome_iff (hn : 1 ≤ memorySize) (hfit : memory + 4 * memorySize ≤ 4294967296)
    (hlock : previous.hashtableLock.tcbPointer = NULL) (hfuel : NUMBER_OF_POOLS ≤ fuel) :
    (osInit fuel previous memory memorySize).isSome = true ↔
      EnoughBlocks (memoryClusterInit previous memory memorySize).1.freeCounts := by
  obtain ⟨stop, -, hready⟩ := fresh_ready hn hfit hlock NULL
  rw [osInit_serves_iff hn hfit hlock,
    LeaseSystem.allocAll_isSome_iff hready.carved hready.locks hfuel]
  exact osRequests_fit_iff _

/-- **`OS_init` returns** exactly if enough blocks have been carved out of the array: each
search takes at most a round for each pool then, and without them one search goes on
forever. -/
theorem osInit_returns_iff (hn : 1 ≤ memorySize) (hfit : memory + 4 * memorySize ≤ 4294967296)
    (hlock : previous.hashtableLock.tcbPointer = NULL) :
    (EnoughBlocks (memoryClusterInit previous memory memorySize).1.freeCounts →
      ∀ fuel, NUMBER_OF_POOLS ≤ fuel →
        (osInit fuel previous memory memorySize).isSome = true) ∧
    (¬ EnoughBlocks (memoryClusterInit previous memory memorySize).1.freeCounts →
      ∀ fuel, osInit fuel previous memory memorySize = none) := by
  constructor
  · intro henough fuel hfuel
    exact (osInit_isSome_iff hn hfit hlock hfuel).mpr henough
  · intro hfew fuel
    by_contra hsome
    rw [← ne_eq, Option.ne_none_iff_isSome, osInit_serves_iff hn hfit hlock] at hsome
    obtain ⟨r, hall⟩ := Option.isSome_iff_exists.mp hsome
    -- more rounds do not change a search that ends
    refine hfew ((osInit_isSome_iff hn hfit hlock (Nat.le_add_left _ fuel)).mp ?_)
    rw [osInit_serves_iff hn hfit hlock]
    exact Option.isSome_iff_exists.mpr ⟨r, LeaseSystem.allocAll_mono hall⟩

/-- The array of `main.c` has enough blocks. -/
theorem mempoolSize_enoughBlocks :
    EnoughBlocks (memoryClusterInit staleCluster 536870912 26384).1.freeCounts := by
  unfold EnoughBlocks
  decide +kernel

/-- With the array of `main.c`, it returns. -/
theorem osInit_returns_mempoolSize :
    (osInit NUMBER_OF_POOLS staleCluster 536870912 26384).isSome = true :=
  (osInit_returns_iff (by decide) (by decide) (by decide)).1 mempoolSize_enoughBlocks _ le_rfl

/-- The addresses of the channels, in the order in which they were made. -/
def channelAddress (m : OSMemory) (i : Nat) : Nat :=
  (m.channelManager.channels[i]?).elim NULL ChannelMemory.channel

/-- What `OS_init` has made of a new array: there is memory for every request, no word of
it is that of two structures, and the channels are where the channel manager can use
them. -/
structure Apart (memory memorySize : Nat) (m : OSMemory) (s : LeaseSystem) : Prop where
  leases : s.leases = (List.zipWith Lease.mk m.pointers osRequests).reverse
  served : m.pointers.length = osRequests.length
  nodup : m.pointers.Nodup
  ne_null : NULL ∉ m.pointers
  inside : ∀ p i, s.Grants p i → memory ≤ p + 4 * i ∧ p + 4 * i < memory + 4 * memorySize
  apart : ∀ p q i j, s.Grants p i → s.Grants q j → p + 4 * i = q + 4 * j → p = q ∧ i = j
  channels : ChannelManager.Allocated 16 (channelAddress m)

theorem channels_allocated {m : OSMemory} {n : Nat}
    (hlength : m.channelManager.channels.length = n)
    (hnodup : (m.channelManager.channels.flatMap ChannelMemory.pointers).Nodup)
    (hnull : NULL ∉ m.channelManager.channels.flatMap ChannelMemory.pointers) :
    ChannelManager.Allocated n (channelAddress m) := by
  have haddress : ∀ i (hi : i < m.channelManager.channels.length),
      channelAddress m i = m.channelManager.channels[i].channel := by
    intro i hi
    unfold channelAddress
    rw [List.getElem?_eq_getElem hi]
    rfl
  subst hlength
  constructor
  · intro i hi heq
    rw [haddress i hi] at heq
    exact hnull (List.mem_flatMap.mpr ⟨_, List.getElem_mem hi, heq ▸ List.mem_cons_self ..⟩)
  · intro i hi j hj heq
    rw [haddress i hi, haddress j hj] at heq
    by_contra hne
    -- two channels have no pointer in common
    have hdisjoint := List.pairwise_iff_getElem.mp (List.nodup_flatMap.mp hnodup).2
    rcases Nat.lt_or_gt_of_ne hne with hlt | hgt
    · exact hdisjoint i j hi hj hlt (List.mem_cons_self ..) (heq ▸ List.mem_cons_self ..)
    · exact hdisjoint j i hj hi hgt (List.mem_cons_self ..) (heq ▸ List.mem_cons_self ..)

/-- **The structures of the system are apart.** -/
theorem osInit_apart {m : OSMemory} {s : LeaseSystem} (hn : 1 ≤ memorySize)
    (hfit : memory + 4 * memorySize ≤ 4294967296)
    (hlock : previous.hashtableLock.tcbPointer = NULL)
    (h : osInit fuel previous memory memorySize = some (m, s)) : Apart memory memorySize m s := by
  obtain ⟨stop, hstop, hready⟩ := fresh_ready hn hfit hlock NULL
  obtain ⟨hready', ps, hall, hnull, hlength, rfl⟩ := (initStructures_makes _ hready).2 m s h
  obtain ⟨hserved, hleases⟩ := LeaseSystem.allocAll_leases hall hnull
  have hleases' : s.leases = (List.zipWith Lease.mk m.pointers osRequests).reverse :=
    hleases.trans (List.append_nil _)
  obtain ⟨_, _, hleased⟩ := hready'.carved.leased
  have hlive : s.toSystem.live = m.pointers.reverse :=
    (LeaseSystem.allocAll_live hall hnull).trans (List.append_nil _)
  have hnodup : m.pointers.Nodup := by
    rw [← List.nodup_reverse, ← hlive]
    exact hready'.carved.live_nodup
  -- the blocks of the channels are the last of all
  have hsub : (m.channelManager.channels.flatMap ChannelMemory.pointers).Sublist m.pointers :=
    ((List.sublist_cons_self _ _).trans (List.sublist_cons_self _ _)).trans
      (List.sublist_append_right _ _)
  refine
    { leases := hleases'
      served := hserved
      nodup := hnodup
      ne_null := hnull
      inside := ?_
      apart := ?_
      channels := ?_ }
  · intro p i hg
    obtain ⟨b, hb, rfl, hi⟩ := hleased.granted hg
    obtain ⟨hstart, hend⟩ := hleased.rep.layout.inside b hb
    unfold blockEnd at hend
    omega
  · intro p q i j hp hq heq
    by_contra hne
    exact hleased.word_ne hp hq (by omega) heq
  · exact channels_allocated hlength (hnodup.sublist hsub) fun hmem => hnull (hsub.subset hmem)

theorem osInit_apart_mempoolSize :
    ∃ m s, osInit 5 staleCluster 536870912 26384 = some (m, s) ∧ Apart 536870912 26384 m s := by
  have hsome : (osInit 5 staleCluster 536870912 26384).isSome = true :=
    (osInit_isSome_iff (by decide) (by decide) (by decide) (by decide)).mpr mempoolSize_enoughBlocks
  obtain ⟨⟨m, s⟩, h⟩ := Option.isSome_iff_exists.mp hsome
  exact ⟨m, s, h, osInit_apart (by decide) (by decide) (by decide) h⟩

end Results

/-! ## A channel that is destroyed -/

section Destroy

variable {c₀ : Memcluster} {start stop : Nat} {blocks : List Nat}
  {fuel caller capacity words : Nat} {channel : ChannelMemory} {s s' s₁ s₂ s₃ : LeaseSystem}
  {β : Type}

theorem osAlloc_bind_eq_some {next : Nat → Program β} {b : β} :
    (osAlloc fuel caller words >>= next) s = some (b, s') ↔
      ∃ s₁ p, s.alloc fuel caller words = some (s₁, p) ∧ next p s₁ = some (b, s') := by
  show ((s.alloc fuel caller words).map Prod.swap).bind (fun r => next r.1 r.2) = _ ↔ _
  rw [Option.bind_map, Option.bind_eq_some_iff]
  constructor
  · rintro ⟨⟨s₁, p⟩, halloc, hnext⟩
    exact ⟨s₁, p, halloc, hnext⟩
  · rintro ⟨s₁, p, halloc, hnext⟩
    exact ⟨(s₁, p), halloc, hnext⟩

/-- A channel that has been made has been given a block for each of its parts. -/
theorem newChannel_serves
    (h : newChannel fuel caller capacity s = some (some channel, s₁)) :
    s.allocAll fuel caller (channelRequests capacity) = some (s₁, channel.pointers) ∧
      NULL ∉ channel.pointers := by
  -- after each request the code tests the pointers, and gives up where one is NULL
  obtain ⟨s₂, p, halloc, h⟩ := osAlloc_bind_eq_some.mp h
  split at h
  · cases h
  rename_i hchannel
  obtain ⟨s₃, readTokens, hread, h⟩ := osAlloc_bind_eq_some.mp h
  obtain ⟨s₄, writeTokens, hwrite, h⟩ := osAlloc_bind_eq_some.mp h
  split at h
  · cases h
  rename_i htokens
  rw [not_or] at htokens
  obtain ⟨s₅, queueLock, hlock, h⟩ := osAlloc_bind_eq_some.mp h
  split at h
  · cases h
  rename_i hqueueLock
  unfold newQueue at h
  split at h
  · cases h
  obtain ⟨s₆, queue, hqueue, h⟩ := osAlloc_bind_eq_some.mp h
  split at h
  · cases h
  rename_i hne
  cases h
  constructor
  · simp only [channelRequests, LeaseSystem.allocAll, halloc, hread, hwrite, hlock, hqueue,
      Option.bind_eq_bind, Option.bind_some, Option.pure_def, ChannelMemory.pointers]
  · simp only [ChannelMemory.pointers, List.mem_cons, List.not_mem_nil, or_false, not_or]
    exact ⟨Ne.symm hchannel, Ne.symm htokens.1, Ne.symm htokens.2, Ne.symm hqueueLock,
      Ne.symm hne⟩

theorem osFree_bind (p : Nat) (next : Unit → Program β) :
    (osFree fuel caller p >>= next) s =
      (s.step (.deallocate fuel caller p)).bind (next ()) := by
  show ((s.step (.deallocate fuel caller p)).map _).bind _ = _
  rw [Option.bind_map]
  rfl

theorem destroyChannel_eq :
    destroyChannel fuel caller channel s =
      (s.freeAll fuel caller channel.freeOrder).map fun s => ((), s) := by
  simp only [destroyChannel, osFree_bind, ChannelMemory.freeOrder, LeaseSystem.freeAll,
    Option.map_bind, Function.comp_def, Option.map_some]
  unfold osFree
  simp only [Option.map_eq_bind]
  rfl

theorem freeOrder_perm (channel : ChannelMemory) :
    channel.freeOrder.Perm channel.pointers := by
  have hlast := List.perm_append_singleton channel.channel
    [channel.writeTokens, channel.readTokens, channel.queueLock, channel.queue]
  exact hlast.trans ((List.Perm.swap ..).cons _)

/-- A channel is made. Then the tasks call the cluster and write their memory as they like,
but they free no block of the channel. -/
structure InUse (previous : Memcluster) (memory memorySize capacity : Nat)
    (channel : ChannelMemory) (s s₁ s₂ : LeaseSystem) : Prop where
  reach : (leaseMachine previous memory memorySize).Reach s
  made : ∃ fuel caller, newChannel fuel caller capacity s = some (some channel, s₁)
  used : ∃ accesses, (leaseMachine previous memory memorySize).run s₁ accesses = some s₂ ∧
    ∀ access ∈ accesses, ∀ p ∈ channel.pointers, ¬ access.Frees p

variable {previous : Memcluster} {memory memorySize : Nat}

/-- The blocks of the channel are handed out when it is made, and still are when it is
destroyed. -/
structure Held (c₀ : Memcluster) (start stop : Nat) (blocks : List Nat) (channel : ChannelMemory)
    (s s₁ s₂ : LeaseSystem) : Prop where
  before : Carved c₀ start stop blocks s
  made : Carved c₀ start stop blocks s₁
  used : Carved c₀ start stop blocks s₂
  nodup : channel.pointers.Nodup
  live : (s₁.toSystem.live : Multiset Nat) = channel.pointers + s.toSystem.live
  held : ∀ p ∈ channel.pointers, p ∈ s₂.toSystem.live

theorem InUse.held (hn : 1 ≤ memorySize) (hfit : memory + 4 * memorySize ≤ 4294967296)
    (h : InUse previous memory memorySize capacity channel s s₁ s₂) :
    ∃ stop, Held s.cluster memory stop (carvedBlocks previous memory memorySize) channel
      s s₁ s₂ := by
  obtain ⟨stop, -, hreach⟩ := reach_leased hn hfit previous
  obtain ⟨free, bucket, hleased⟩ := hreach s h.reach
  have hs : Carved s.cluster memory stop (carvedBlocks previous memory memorySize) s :=
    ⟨⟨free, bucket, hleased⟩, fun _ _ => rfl⟩
  obtain ⟨fuel, caller, hmade⟩ := h.made
  obtain ⟨hserved, hnull⟩ := newChannel_serves hmade
  have hs₁ := LeaseSystem.allocAll_carved hs hserved
  have hlive := LeaseSystem.allocAll_live hserved hnull
  -- the parts are the newest leases, and no two leases are of one block
  have hnodup := hs₁.live_nodup
  rw [hlive, List.nodup_append] at hnodup
  obtain ⟨accesses, hrun, hkeeps⟩ := h.used
  obtain ⟨hs₂, hheld⟩ := LeaseSystem.run_keeps hs₁ hrun
  refine ⟨stop, ?_⟩
  refine
    { before := hs
      made := hs₁
      used := hs₂
      nodup := List.nodup_reverse.mp hnodup.1
      live := ?_
      held := ?_ }
  · rw [hlive, ← Multiset.coe_add, Multiset.coe_reverse]
  · intro p hp
    -- nobody frees a part while the channel is in use
    refine hheld p ?_ fun access ha => hkeeps access ha p hp
    rw [hlive]
    exact List.mem_append_left _ (List.mem_reverse.mpr hp)

/-- What `destroy_channel` frees is what the channel was made of. -/
theorem Held.freed (h : Held c₀ start stop blocks channel s s₁ s₂)
    (hfree : s₂.freeAll fuel caller channel.freeOrder = some s₃) :
    (s₂.toSystem.live : Multiset Nat) = s₃.toSystem.live + channel.pointers := by
  have hle : (channel.freeOrder : Multiset Nat) ≤ s₂.toSystem.live := by
    rw [Multiset.coe_eq_coe.mpr (freeOrder_perm channel)]
    exact (Multiset.le_iff_subset (Multiset.coe_nodup.mpr h.nodup)).mpr h.held
  have hrest : (s₃.toSystem.live : Multiset Nat) =
      (s₂.toSystem.live : Multiset Nat) - channel.freeOrder := by
    rw [LeaseSystem.freeAll_live hfree, Multiset.coe_sub, List.diff_eq_foldl]
  rw [hrest, ← Multiset.coe_eq_coe.mpr (freeOrder_perm channel), tsub_add_cancel_of_le hle]

/-- **`destroy_channel` returns** if no task but the caller owns a lock that it takes, and only
then. -/
theorem destroyChannel_returns_iff (hn : 1 ≤ memorySize)
    (hfit : memory + 4 * memorySize ≤ 4294967296)
    (h : InUse previous memory memorySize capacity channel s s₁ s₂) :
    (∃ fuel s₃, destroyChannel fuel caller channel s₂ = some ((), s₃)) ↔
      ∀ p ∈ channel.pointers, s₂.cluster.FreeLocks caller p := by
  obtain ⟨stop, hheld⟩ := h.held hn hfit
  have hperm := freeOrder_perm channel
  have hnodup := hperm.nodup_iff.mpr hheld.nodup
  have hlive : ∀ p ∈ channel.freeOrder, p ∈ s₂.toSystem.live := fun p hp =>
    hheld.held p (hperm.mem_iff.mp hp)
  constructor
  · rintro ⟨fuel, s₃, hs⟩ p hp
    rw [destroyChannel_eq] at hs
    obtain ⟨s₃, hfree, -⟩ := Option.map_eq_some_iff.mp hs
    exact LeaseSystem.freeLocks_of_freeAll hheld.used hnodup hlive hfree p (hperm.mem_iff.mpr hp)
  · intro hlocks
    obtain ⟨s₃, hfree⟩ := LeaseSystem.freeAll_returns hheld.used hnodup hlive
      (fun p hp => hlocks p (hperm.mem_iff.mp hp)) (Nat.lt_succ_self _)
    refine ⟨(carvedBlocks previous memory memorySize).length + 1, s₃, ?_⟩
    rw [destroyChannel_eq, hfree, Option.map_some]

/-- **It restores the memory**: the other pointers stay handed out, and every pool has as many
free blocks as if the channel had never been made. -/
theorem destroyChannel_restores (hn : 1 ≤ memorySize)
    (hfit : memory + 4 * memorySize ≤ 4294967296)
    (h : InUse previous memory memorySize capacity channel s s₁ s₂)
    (hs : destroyChannel fuel caller channel s₂ = some ((), s₃)) :
    (s₂.toSystem.live : Multiset Nat) = s₃.toSystem.live + channel.pointers ∧
      ∀ i < NUMBER_OF_POOLS, (s₃.cluster.pools i).freeBlocks + (s₁.cluster.pools i).freeBlocks =
        (s₂.cluster.pools i).freeBlocks + (s.cluster.pools i).freeBlocks := by
  obtain ⟨stop, hheld⟩ := h.held hn hfit
  rw [destroyChannel_eq] at hs
  obtain ⟨s₃, hfree, heq⟩ := Option.map_eq_some_iff.mp hs
  cases heq
  have hfreed := hheld.freed hfree
  refine ⟨hfreed, ?_⟩
  intro i hi
  have hfinal := LeaseSystem.freeAll_keeps (fun _ _ _ hm => hm.step) hheld.used hfree
  -- what the channel has taken from the pool when it is made is what comes back to it
  have h₀ := hheld.before.freeBlocks_add hi
  have h₁ := hheld.made.freeBlocks_add hi
  have h₂ := hheld.used.freeBlocks_add hi
  have h₃ := hfinal.freeBlocks_add hi
  rw [hheld.live, Multiset.countP_add] at h₁
  rw [hfreed, Multiset.countP_add] at h₂
  omega

/-- A channel that is made and destroyed leaves no lease. -/
example : ((newChannel 5 1 4 (freshLeases staleCluster 4096 300)).bind fun r =>
    r.1.bind fun channel => (destroyChannel 5 1 channel r.2).map fun r => r.2.leases) =
      some [] := by decide +kernel

end Destroy

end Boot

end DocetOS
