import DocetOS.OS.ChannelManagerRuns

/-!
# Running out of channels

`channelManager_connect` returns `NULL` when the free list is empty, but it has
already advanced the list: it reads the "next channel" of the channel at `NULL`,
and the free list goes on with whatever word is there.

- `connect_of_new`: a new ID always ends in the branch that takes a channel.
- `Keeps.connect_exhausted`: what a connect does when every channel is bound.
- `connect_never_fails_cleanly`: it is not a clean failure, in any state that
  calls can reach.
-/

namespace DocetOS.ChannelManager

open Lib Lib.RefCount

/-- The manager with another struct at `NULL`. -/
def withNull (s : ChannelManager) (channel : Channel) : ChannelManager :=
  { s with channels := Function.update s.channels NULL channel }

/-- All `n` channels are bound, and the arguments ask for one more. -/
structure Exhausted (n : Nat) (address : Nat → Nat) (s : ChannelManager)
    (channelID capacity : Nat) : Prop where
  allBound : ∀ i < n, ∃ id, (id, address i) ∈ s.channelHashTable.content
  ne_null : channelID ≠ NULL
  isNew : ∀ channel, (channelID, channel) ∉ s.channelHashTable.content
  capacity_le : capacity ≤ MAX_ALLOWED_CHANNEL_CAPACITY

/-- The connect fails without a trace: it does not read what is at `NULL`, and
but for the flag of the table it looked into nothing changes. -/
structure CleanFailure (s : ChannelManager) (channelID capacity : Nat) : Prop where
  noDereference : ∀ channel, (s.withNull channel).connect channelID capacity =
    ((s.connect channelID capacity).1.withNull channel, (s.connect channelID capacity).2)
  returnsNull : (s.connect channelID capacity).2 = NULL
  channelTable : ∃ flag, (s.connect channelID capacity).1.channelHashTable =
    { s.channelHashTable with validValueFlag := flag }
  statusTable :
    (s.connect channelID capacity).1.channelStatusHashTable = s.channelStatusHashTable
  freeList : (s.connect channelID capacity).1.freeChannelsLinkedList = s.freeChannelsLinkedList
  later : ∀ calls, transcript Call.next Call.answer (s.connect channelID capacity).1 calls =
    transcript Call.next Call.answer s calls

/-! ## What calls keep -/

section Tables

variable {s : ChannelManager} {channelID capacity : Nat}

theorem connectAgain_wf (h : s.channelHashTable.WF) (channel : Nat) :
    (s.connectAgain channelID channel).1.channelHashTable.WF := h

theorem connectFirst_wf (h : s.channelHashTable.WF) :
    (s.connectFirst channelID capacity).1.channelHashTable.WF := by
  unfold connectFirst
  dsimp only
  split
  · exact h
  · exact Hashtable.put_wf h _ _ _

theorem connect_wf (h : s.channelHashTable.WF) (channelID capacity : Nat) :
    (s.connect channelID capacity).1.channelHashTable.WF := by
  have hget : (s.channelHashTable.get channelID).1.WF := Hashtable.get_wf h channelID
  unfold connect
  split
  · exact h
  · split
    · exact h
    · dsimp only
      split
      · exact connectAgain_wf hget _
      · exact connectFirst_wf hget

theorem disconnect_wf (h : s.channelHashTable.WF) (channelID : Nat) :
    (s.disconnect channelID).1.channelHashTable.WF := by
  have hremove : (s.channelHashTable.remove channelID).1.WF := Hashtable.remove_wf h channelID
  unfold disconnect
  dsimp only
  split
  · exact h
  · split
    · exact h
    · exact hremove

/-- The table stays well formed whatever is called, also when the calls exceed
the number of channels. -/
theorem Call.next_wf (h : s.channelHashTable.WF) (call : Call) :
    (call.next s).channelHashTable.WF := by
  cases call with
  | connect channelID capacity => exact connect_wf h channelID capacity
  | disconnect channelID => exact disconnect_wf h channelID
  | checkAlive channelID => exact h
  | use channel readTokens writeTokens queueLock queue => exact h

theorem foldl_next_wf (h : s.channelHashTable.WF) (calls : List Call) :
    (calls.foldl Call.next s).channelHashTable.WF := by
  induction calls generalizing s with
  | nil => exact h
  | cons call calls ih => exact ih (call.next_wf h)

/-! ## The connect of a new ID -/

/-- A new ID is not found, so the free list is advanced. -/
theorem connect_of_new (h : s.channelHashTable.WF) (hid : channelID ≠ NULL)
    (hcapacity : capacity ≤ MAX_ALLOWED_CHANNEL_CAPACITY)
    (hnew : ∀ channel, (channelID, channel) ∉ s.channelHashTable.content) :
    s.connect channelID capacity =
      ({ s with channelHashTable := { s.channelHashTable with validValueFlag := 0 } } :
        ChannelManager).connectFirst channelID capacity := by
  unfold connect
  rw [if_neg hid, if_neg (Nat.not_lt.mpr hcapacity), Hashtable.get_of_not_mem h hnew]
  rfl

/-- With a free list that is not empty a channel is returned. -/
theorem connect_of_free (h : s.channelHashTable.WF) (hid : channelID ≠ NULL)
    (hcapacity : capacity ≤ MAX_ALLOWED_CHANNEL_CAPACITY)
    (hnew : ∀ channel, (channelID, channel) ∉ s.channelHashTable.content)
    (hfree : s.freeChannelsLinkedList ≠ NULL) :
    (s.connect channelID capacity).2 = s.freeChannelsLinkedList := by
  rw [connect_of_new h hid hcapacity hnew]
  unfold connectFirst
  dsimp only
  rw [if_neg hfree]

/-- With an empty free list the word at `NULL` becomes the free list. -/
theorem connect_of_none_free (h : s.channelHashTable.WF) (hid : channelID ≠ NULL)
    (hcapacity : capacity ≤ MAX_ALLOWED_CHANNEL_CAPACITY)
    (hnew : ∀ channel, (channelID, channel) ∉ s.channelHashTable.content)
    (hfree : s.freeChannelsLinkedList = NULL) :
    s.connect channelID capacity =
      ({ s with
          channelHashTable := { s.channelHashTable with validValueFlag := 0 }
          freeChannelsLinkedList := (s.channels NULL).channelID }, NULL) := by
  rw [connect_of_new h hid hcapacity hnew]
  unfold connectFirst
  dsimp only
  rw [if_pos hfree, hfree]

/-- The connect of a new ID never fails cleanly: it returns a channel, or it
reads the word at `NULL`. -/
theorem not_cleanFailure (h : s.channelHashTable.WF) (hid : channelID ≠ NULL)
    (hcapacity : capacity ≤ MAX_ALLOWED_CHANNEL_CAPACITY)
    (hnew : ∀ channel, (channelID, channel) ∉ s.channelHashTable.content) :
    ¬ CleanFailure s channelID capacity := by
  intro hclean
  by_cases hfree : s.freeChannelsLinkedList = NULL
  · -- another struct at `NULL` would have led to another free list
    obtain ⟨channel, hchannel⟩ : ∃ channel : Channel,
        channel.channelID ≠ (s.channels NULL).channelID :=
      ⟨{ s.channels NULL with channelID := (s.channels NULL).channelID + 1 }, Nat.succ_ne_self _⟩
    have hother := @connect_of_none_free (s.withNull channel) _ _ h hid hcapacity hnew hfree
    have hcommutes := hother.symm.trans (hclean.noDereference channel)
    rw [connect_of_none_free h hid hcapacity hnew hfree] at hcommutes
    have hheads := congrArg (fun r => r.1.freeChannelsLinkedList) hcommutes
    exact hchannel (by simpa [withNull] using hheads)
  · have hreturned := hclean.returnsNull
    rw [connect_of_free h hid hcapacity hnew hfree] at hreturned
    exact hfree hreturned

end Tables

/-! ## When every channel is bound -/

section Exhausted

variable {n : Nat} {address : Nat → Nat} {outstanding : Multiset Nat} {m : Leases Nat Nat}
  {free : List Nat} {s : ChannelManager} {channelID capacity : Nat}

/-- No channel is free when all are bound. -/
theorem Keeps.free_eq_nil (h : Keeps n address outstanding m free s) (ha : Allocated n address)
    (hbound : ∀ i < n, ∃ id, (id, address i) ∈ s.channelHashTable.content) : free = [] := by
  rw [List.eq_nil_iff_forall_not_mem]
  intro channel hchannel
  obtain ⟨i, hi, rfl⟩ := Multiset.mem_map.mp (h.free_mem_pool hchannel)
  obtain ⟨id, hid⟩ := hbound i (Multiset.mem_range.mp hi)
  have hnodup := Keeps.pool_nodup ha
  rw [← h.pool, Multiset.nodup_add] at hnodup
  exact Multiset.disjoint_left.mp hnodup.2.2 (Multiset.mem_coe.mpr hchannel)
    (Multiset.mem_map.mpr ⟨_, hid, rfl⟩)

/-- **The damage**: `NULL` is returned and the tables are as before, but the free
list is the word at `NULL`. -/
theorem Keeps.connect_exhausted (h : Keeps n address outstanding m free s)
    (ha : Allocated n address) (hexhausted : Exhausted n address s channelID capacity) :
    s.connect channelID capacity =
      ({ s with
          channelHashTable := { s.channelHashTable with validValueFlag := 0 }
          freeChannelsLinkedList := (s.channels NULL).channelID }, NULL) := by
  have hnil := h.free_eq_nil ha hexhausted.allBound
  have hlist := h.freeList
  rw [hnil] at hlist
  have hfree : s.freeChannelsLinkedList = NULL := by
    by_contra hne
    have hhead := hlist.head_eq
    rw [toPtr_of_ne hne] at hhead
    cases hhead
  exact connect_of_none_free h.channel.wf hexhausted.ne_null hexhausted.capacity_le
    hexhausted.isNew hfree

end Exhausted

/-! ## Runs -/

variable {n : Nat} {address : Nat → Nat}

theorem initializeChannelManager_wf (memory memory' : Nat → HashtableValue) (flag flag' : Nat)
    (queueMemory : Nat → Nat → Nat) (channels : Nat → Channel) :
    (initializeChannelManager n address memory memory' flag flag' queueMemory
      channels).channelHashTable.WF := by
  unfold initializeChannelManager
  rw [(allocateChannels_tables queueMemory n _).1]
  exact Hashtable.newHashtable_wf_of_buckets (by decide) memory flag

/-- **Running out of channels is not a clean failure**: in no state that calls
reach in which all channels are bound. -/
theorem connect_never_fails_cleanly (memory memory' : Nat → HashtableValue) (flag flag' : Nat)
    (queueMemory : Nat → Nat → Nat) (channels : Nat → Channel) (calls : List Call)
    {channelID capacity : Nat}
    (h : Exhausted n address (calls.foldl Call.next
      (initializeChannelManager n address memory memory' flag flag' queueMemory channels))
      channelID capacity) :
    ¬ CleanFailure (calls.foldl Call.next
      (initializeChannelManager n address memory memory' flag flag' queueMemory channels))
      channelID capacity :=
  not_cleanFailure (foldl_next_wf (initializeChannelManager_wf memory memory' flag flag'
    queueMemory channels) calls) h.ne_null h.capacity_le h.isNew

/-- A manager of one channel, at 4096, that is bound to 5. The word that `NULL`
has for a channel ID is 777. -/
def oneBound : ChannelManager :=
  [Call.connect 5 4].foldl Call.next
    (initializeChannelManager 1 (fun _ => 4096) (fun _ => ⟨none, 0, 0⟩) (fun _ => ⟨none, 0, 0⟩)
      0 0 (fun _ _ => 0) fun _ => newChannel 777 0 fun _ => 0)

theorem oneBound_exhausted : Exhausted 1 (fun _ => 4096) oneBound 6 4 where
  allBound i _ := ⟨5, show (5, 4096) ∈ oneBound.channelHashTable.content by decide +kernel⟩
  ne_null := by decide
  isNew channel hmem := by
    have hkeys : 6 ∉ oneBound.channelHashTable.content.map Prod.fst := by decide +kernel
    exact hkeys (Multiset.mem_map_of_mem Prod.fst hmem)
  capacity_le := by decide

theorem connect_never_fails_cleanly_oneBound : ¬ CleanFailure oneBound 6 4 :=
  connect_never_fails_cleanly _ _ 0 0 _ _ [.connect 5 4] oneBound_exhausted

/-- The connect of 6 makes 777 the free list. After 5 has given its channel back,
the connect of 8 returns the address 777, where `NULL` was due. -/
theorem connect_wild_pointer :
    oneBound.freeChannelsLinkedList = NULL ∧
      (oneBound.connect 6 4).1.freeChannelsLinkedList = 777 ∧
      ((((oneBound.connect 6 4).1.disconnect 5).1.connect 7 4).1.connect 8 4).2 = 777 ∧
      (((oneBound.disconnect 5).1.connect 7 4).1.connect 8 4).2 = NULL ∧
      ¬ CleanFailure oneBound 6 4 := by
  have hbefore : oneBound.freeChannelsLinkedList = NULL := by decide +kernel
  have hafter : (oneBound.connect 6 4).1.freeChannelsLinkedList = 777 := by decide +kernel
  refine ⟨hbefore, hafter, by decide +kernel, by decide +kernel, ?_⟩
  intro hclean
  have hsame := hclean.freeList
  rw [hbefore, hafter] at hsame
  exact absurd hsame (by decide)

end DocetOS.ChannelManager
