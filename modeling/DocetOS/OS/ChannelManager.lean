import DocetOS.DataStructures.Channel
import DocetOS.DataStructures.HashtableMap
import DocetOS.Lib.RefCount

/-!
# The channel manager (`channelManger.c`)

`channels` is the memory in which the `OS_channel_t` structs are, by address;
the pointers stored in `channelHashTable` are addresses. A channel that nobody
uses is on the list of free channels, and its `channelID` is the pointer to the
next one.

The allocations at start-up succeed: `address i` is the address of the `i`-th
channel. Between the callbacks tasks use the channels (`use`): they change
everything in them but the ID and the capacity.
-/

namespace DocetOS

def NUM_BUCKETS_FOR_CHANNELS_HASHTABLE : Nat := 8

def MAX_ALLOWED_CHANNEL_CAPACITY : Nat := 16

/-- The static variables of `channelManger.c` and the channel structs. -/
structure ChannelManager where
  channelHashTable : Hashtable
  channelStatusHashTable : Hashtable
  freeChannelsLinkedList : Nat
  channels : Nat → Channel

namespace ChannelManager

/-- The first rounds of the loop of `initialize_channelManager`: every new
channel goes to the front of the free list. -/
def allocateChannels (address : Nat → Nat) (queueMemory : Nat → Nat → Nat) :
    Nat → ChannelManager → ChannelManager
  | 0, s => s
  | i + 1, s =>
    let s := allocateChannels address queueMemory i s
    let channel := newChannel 1 MAX_ALLOWED_CHANNEL_CAPACITY (queueMemory i)
    { s with
        channels := Function.update s.channels (address i)
          { channel with channelID := s.freeChannelsLinkedList }
        freeChannelsLinkedList := address i }

/-- `initialize_channelManager`. The tables are on blocks that held `memory`,
`flag` and `memory'`, `flag'`; the rest of the memory holds `channels`. -/
def initializeChannelManager (maxNumberOfChannels : Nat) (address : Nat → Nat)
    (memory memory' : Nat → HashtableValue) (flag flag' : Nat) (queueMemory : Nat → Nat → Nat)
    (channels : Nat → Channel) : ChannelManager :=
  allocateChannels address queueMemory maxNumberOfChannels
    { channelHashTable :=
        .newHashtable maxNumberOfChannels NUM_BUCKETS_FOR_CHANNELS_HASHTABLE memory flag
      channelStatusHashTable :=
        .newHashtable maxNumberOfChannels NUM_BUCKETS_FOR_CHANNELS_HASHTABLE memory' flag'
      freeChannelsLinkedList := NULL
      channels }

/-- The branch of `channelManager_connect` for an ID whose channel exists. -/
def connectAgain (s : ChannelManager) (channelID channel : Nat) : ChannelManager × Nat :=
  let (status, numConnections) := s.channelStatusHashTable.remove channelID
  let numConnections := wrap (numConnections + 1)
  ({ s with
      channelStatusHashTable :=
        (status.put channelID numConnections .rejectMultipleValuesPerKey).1 }, channel)

/-- The branch of `channelManager_connect` that takes a free channel. The next
free channel is read before the test for `NULL`. -/
def connectFirst (s : ChannelManager) (channelID capacity : Nat) : ChannelManager × Nat :=
  let newChannel := s.freeChannelsLinkedList
  let s := { s with freeChannelsLinkedList := (s.channels newChannel).channelID }
  if newChannel = NULL then (s, NULL)
  else
    ({ s with
        channels := Function.update s.channels newChannel
          (channelInit (s.channels newChannel) channelID capacity)
        channelHashTable :=
          (s.channelHashTable.put channelID newChannel .rejectMultipleValuesPerKey).1
        channelStatusHashTable :=
          (s.channelStatusHashTable.put channelID 1 .rejectMultipleValuesPerKey).1 }, newChannel)

/-- `channelManager_connect`. -/
def connect (s : ChannelManager) (channelID capacity : Nat) : ChannelManager × Nat :=
  if channelID = NULL then (s, NULL)
  else if capacity > MAX_ALLOWED_CHANNEL_CAPACITY then (s, NULL)
  else
    let (channelHashTable, channel) := s.channelHashTable.get channelID
    let s := { s with channelHashTable }
    if channel ≠ NULL then s.connectAgain channelID channel
    else s.connectFirst channelID capacity

/-- `channelManager_checkAlive`. -/
def checkAlive (s : ChannelManager) (channelID : Nat) : ChannelManager × Nat :=
  let (channelStatusHashTable, numConnections) := s.channelStatusHashTable.get channelID
  ({ s with channelStatusHashTable }, if numConnections ≠ 0 then numConnections else 0)

/-- The end of `channelManager_disconnect` when no connection is left. -/
def recycle (s : ChannelManager) (channelID : Nat) : ChannelManager :=
  let (channelHashTable, channel) := s.channelHashTable.remove channelID
  { s with
      channelHashTable
      freeChannelsLinkedList := channel
      channels := Function.update s.channels channel
        { s.channels channel with channelID := s.freeChannelsLinkedList } }

/-- `channelManager_disconnect`. -/
def disconnect (s : ChannelManager) (channelID : Nat) : ChannelManager × Nat :=
  let (s, alive) := s.checkAlive channelID
  if alive = 0 then (s, 0)
  else
    let (status, numConnections) := s.channelStatusHashTable.remove channelID
    let numConnections := decr numConnections
    if numConnections ≠ 0 then
      ({ s with
          channelStatusHashTable :=
            (status.put channelID numConnections .rejectMultipleValuesPerKey).1 }, 1)
    else (({ s with channelStatusHashTable := status } : ChannelManager).recycle channelID, 1)

/-- Tasks change the semaphores, the lock and the queue of a channel. -/
def use (s : ChannelManager) (channel : Nat) (readTokens writeTokens : Semaphore)
    (queueLock : Mutex) (queue : Queue) : ChannelManager :=
  { s with
      channels := Function.update s.channels channel
        { s.channels channel with readTokens, writeTokens, queueLock, queue } }

/-- A callback, or what tasks do with a channel. -/
inductive Call where
  | connect (channelID capacity : Nat)
  | disconnect (channelID : Nat)
  | checkAlive (channelID : Nat)
  | use (channel : Nat) (readTokens writeTokens : Semaphore) (queueLock : Mutex) (queue : Queue)

namespace Call

def next (s : ChannelManager) : Call → ChannelManager
  | .connect channelID capacity => (s.connect channelID capacity).1
  | .disconnect channelID => (s.disconnect channelID).1
  | .checkAlive channelID => (s.checkAlive channelID).1
  | .use channel readTokens writeTokens queueLock queue =>
    s.use channel readTokens writeTokens queueLock queue

/-- The call with what it returns. -/
def answer (s : ChannelManager) : Call → Lib.RefCount.Event Nat Nat
  | .connect channelID capacity => .acquire channelID (toPtr (s.connect channelID capacity).2)
  | .disconnect channelID => .release channelID (decide ((s.disconnect channelID).2 ≠ 0))
  | .checkAlive channelID => .ask channelID (s.checkAlive channelID).2
  | .use .. => .other

/-- The IDs with a connection, as often as they have one, after a call that
succeeds whenever its arguments allow it to. -/
def connections (outstanding : Multiset Nat) : Call → Multiset Nat
  | .connect channelID capacity =>
    if channelID ≠ NULL ∧ capacity ≤ MAX_ALLOWED_CHANNEL_CAPACITY then channelID ::ₘ outstanding
    else outstanding
  | .disconnect channelID => outstanding.erase channelID
  | _ => outstanding

end Call

/-- At most `n` IDs are connected at a time, and no ID has `2 ^ 32` connections. -/
def WithinLimits (n : Nat) : Multiset Nat → List Call → Prop
  | _, [] => True
  | outstanding, call :: calls =>
    (call.connections outstanding).toFinset.card ≤ n ∧
      (∀ channelID ∈ call.connections outstanding,
        (call.connections outstanding).count channelID < 2 ^ 32) ∧
      WithinLimits n (call.connections outstanding) calls

instance WithinLimits.decidable (n : Nat) : (outstanding : Multiset Nat) → (calls : List Call) →
    Decidable (WithinLimits n outstanding calls)
  | _, [] => inferInstanceAs (Decidable True)
  | outstanding, call :: calls =>
    have := WithinLimits.decidable n (call.connections outstanding) calls
    inferInstanceAs (Decidable (_ ∧ _ ∧ _))

end ChannelManager

end DocetOS
