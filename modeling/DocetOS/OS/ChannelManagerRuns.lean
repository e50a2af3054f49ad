import DocetOS.OS.ChannelManager

/-!
# The channel manager counts references

The invariant `Keeps`: the two tables map an ID to the channel lent to it and to
its number of users, and the free list and the lent channels together are the
channels of the manager, each once. One lemma for every callback says which step
of the reference counting specification it is; `channelManager_counts_references`
is the result for runs.
-/

namespace DocetOS.ChannelManager

open Lib Lib.RefCount

/-- The pointer that a free channel holds. -/
def nextFree (s : ChannelManager) (channel : Nat) : Option Nat :=
  toPtr (s.channels channel).channelID

/-- The channels lent to the IDs, as the tables have them. -/
def leases (s : ChannelManager) : Leases Nat Nat := fun channelID =>
  if (s.channelStatusHashTable.get channelID).2 = 0 then none
  else some ⟨(s.channelHashTable.get channelID).2, (s.channelStatusHashTable.get channelID).2⟩

/-- The channels of the manager. -/
def pool (n : Nat) (address : Nat → Nat) : Multiset Nat := (Multiset.range n).map address

/-- Different addresses, none of them `NULL`. -/
structure Allocated (n : Nat) (address : Nat → Nat) : Prop where
  ne_null : ∀ i < n, address i ≠ NULL
  inj : ∀ i < n, ∀ j < n, address i = address j → i = j

/-- What the callbacks keep, with the leases and the free list spelled out. -/
structure Keeps (n : Nat) (address : Nat → Nat) (outstanding : Multiset Nat)
    (m : Leases Nat Nat) (free : List Nat) (s : ChannelManager) : Prop where
  channel : s.channelHashTable.Maps fun channelID => (m channelID).map Lease.resource
  status : s.channelStatusHashTable.Maps fun channelID => (m channelID).map Lease.users
  channel_capacity : s.channelHashTable.maximumCapacity = n
  status_capacity : s.channelStatusHashTable.maximumCapacity = n
  proper : m.Proper
  users : ∀ channelID, m.users channelID = outstanding.count channelID
  freeList : Chain s.nextFree (toPtr s.freeChannelsLinkedList) free
  pool : (free : Multiset Nat) + s.channelHashTable.content.map Prod.snd = pool n address

namespace Keeps

variable {n : Nat} {address : Nat → Nat} {outstanding : Multiset Nat} {m : Leases Nat Nat}
  {free : List Nat} {s : ChannelManager} {channelID : Nat} {l : Lease Nat}

theorem pool_nodup (ha : Allocated n address) : (ChannelManager.pool n address).Nodup :=
  Multiset.Nodup.map_on (fun i hi j hj => ha.inj i (Multiset.mem_range.mp hi) j
    (Multiset.mem_range.mp hj)) (Multiset.nodup_range n)

theorem ne_null_of_mem_pool (ha : Allocated n address) {channel : Nat}
    (hc : channel ∈ ChannelManager.pool n address) : channel ≠ NULL := by
  obtain ⟨i, hi, rfl⟩ := Multiset.mem_map.mp hc
  exact ha.ne_null i (Multiset.mem_range.mp hi)

/-- A lent channel is in the table under its ID. -/
theorem mem_content (h : Keeps n address outstanding m free s) (hm : m channelID = some l) :
    (channelID, l.resource) ∈ s.channelHashTable.content := by
  rw [h.channel.mem_content, hm, Option.map_some]

theorem resource_mem_pool (h : Keeps n address outstanding m free s) (hm : m channelID = some l) :
    l.resource ∈ ChannelManager.pool n address := by
  rw [← h.pool]
  exact Multiset.mem_add.mpr (.inr (Multiset.mem_map.mpr ⟨_, h.mem_content hm, rfl⟩))

theorem free_mem_pool (h : Keeps n address outstanding m free s) {channel : Nat}
    (hc : channel ∈ free) : channel ∈ ChannelManager.pool n address := by
  rw [← h.pool]
  exact Multiset.mem_add.mpr (.inl (Multiset.mem_coe.mpr hc))

/-- A lent channel is not free. -/
theorem not_mem_free (h : Keeps n address outstanding m free s) (ha : Allocated n address)
    (hm : m channelID = some l) : l.resource ∉ free := by
  intro hfree
  have hnodup := pool_nodup ha
  rw [← h.pool, Multiset.nodup_add] at hnodup
  exact Multiset.disjoint_left.mp hnodup.2.2 (Multiset.mem_coe.mpr hfree)
    (Multiset.mem_map.mpr ⟨_, h.mem_content hm, rfl⟩)

theorem mem_outstanding_iff (h : Keeps n address outstanding m free s) :
    channelID ∈ outstanding ↔ m channelID ≠ none := by
  rw [← Multiset.count_pos, ← h.users]
  cases hm : m channelID with
  | none => simp [Leases.users, hm]
  | some l => simp [Leases.users, hm, h.proper.used _ _ hm]

/-- The free channels are as many as the free structs of either table. -/
theorem card_outstanding (h : Keeps n address outstanding m free s) :
    outstanding.toFinset.card + s.channelHashTable.remainingCapacity = n ∧
      outstanding.toFinset.card + s.channelStatusHashTable.remainingCapacity = n ∧
      outstanding.toFinset.card + free.length = n := by
  have hkeys : ∀ channelID, channelID ∈ outstanding.toFinset ↔ m channelID ≠ none := fun _ => by
    rw [Multiset.mem_toFinset, h.mem_outstanding_iff]
  have hmapped : ∀ (f : Lease Nat → Nat) channelID,
      channelID ∈ outstanding.toFinset ↔ (m channelID).map f ≠ none := by
    intro f channelID
    rw [hkeys, Ne, Ne, Option.map_eq_none_iff]
  have hchannel := h.channel.card_add_remaining (hmapped _)
  have hstatus := h.status.card_add_remaining (hmapped _)
  have hpool := congrArg Multiset.card h.pool
  have hcontent := h.channel.wf.card_content
  rw [Multiset.card_add, Multiset.coe_card, Multiset.card_map, ChannelManager.pool,
    Multiset.card_map, Multiset.card_range] at hpool
  rw [h.channel_capacity] at hchannel hcontent
  rw [h.status_capacity] at hstatus
  omega

/-- The tables show the leases. -/
theorem leases_eq (h : Keeps n address outstanding m free s) : s.leases = m := by
  funext channelID
  unfold leases
  rw [h.status.get, h.channel.get]
  cases hm : m channelID with
  | none => rfl
  | some l =>
    have hused := h.proper.used _ _ hm
    exact if_neg (Nat.ne_of_gt hused)

/-! ### `checkAlive` -/

theorem checkAlive_eq (h : Keeps n address outstanding m free s) (channelID : Nat) :
    s.checkAlive channelID =
      ({ s with
          channelStatusHashTable :=
            (s.channelStatusHashTable.found ((m channelID).map Lease.users)).1 },
        m.users channelID) := by
  have hzero : ∀ users : Nat, (if users ≠ 0 then users else 0) = users := by
    intro users
    split <;> omega
  unfold checkAlive
  rw [h.status.get]
  dsimp only
  rw [hzero, Leases.users]
  cases m channelID <;> rfl

theorem setStatusFlag (h : Keeps n address outstanding m free s) (value : Option Nat) :
    Keeps n address outstanding m free
      { s with channelStatusHashTable := (s.channelStatusHashTable.found value).1 } :=
  { h with
      status := h.status.found value
      status_capacity := (Hashtable.found_capacity _ value).trans h.status_capacity }

theorem setChannelFlag (h : Keeps n address outstanding m free s) (value : Option Nat) :
    Keeps n address outstanding m free
      { s with channelHashTable := (s.channelHashTable.found value).1 } :=
  { h with
      channel := h.channel.found value
      channel_capacity := (Hashtable.found_capacity _ value).trans h.channel_capacity
      pool := by
        have hcontent : (s.channelHashTable.found value).1.content =
            s.channelHashTable.content := by cases value <;> rfl
        simp only [hcontent]
        exact h.pool }

/-- A lent channel gets another number of users. -/
theorem setUsers (h : Keeps n address outstanding m free s) {channel users users' : Nat}
    {outstanding' : Multiset Nat} {table : Hashtable} (hm : m channelID = some ⟨channel, users⟩)
    (hmaps : table.Maps
      (Function.update (fun id => (m id).map Lease.users) channelID (some users')))
    (hcapacity : table.maximumCapacity = n) (hpos : 0 < users')
    (husers : ∀ id, Leases.users (Function.update m channelID (some ⟨channel, users'⟩)) id =
      outstanding'.count id) :
    Keeps n address outstanding' (Function.update m channelID (some ⟨channel, users'⟩)) free
      { s with channelStatusHashTable := table } := by
  refine
    { h with
      channel := h.channel.congr fun id => ?_
      status := hmaps.congr fun id => ?_
      status_capacity := hcapacity
      proper := h.proper.update hm hpos
      users := husers }
  · rw [Function.update_apply]
    split
    · rename_i hid
      rw [hid, hm]
      rfl
    · rfl
  · rw [Function.update_apply, Function.update_apply]
    split <;> rfl

/-! ### `connect` -/

theorem count_users (h : Keeps n address outstanding m free s) (channelID : Nat) (users : Nat)
    (l : Lease Nat) (hl : l.users = users + 1) (hm : m.users channelID = users) (id : Nat) :
    Leases.users (Function.update m channelID (some l)) id =
      (channelID ::ₘ outstanding).count id := by
  rw [users_update, Multiset.count_cons, ← h.users]
  by_cases hid : id = channelID
  · subst hid
    simp [hl, hm]
  · simp [hid]

/-- A further connection. -/
theorem connectAgain (h : Keeps n address outstanding m free s) {channel users : Nat}
    (hm : m channelID = some ⟨channel, users⟩)
    (hlimit : (channelID ::ₘ outstanding).count channelID < 2 ^ 32) :
    (s.connectAgain channelID channel).2 = channel ∧
      Keeps n address (channelID ::ₘ outstanding)
        (Function.update m channelID (some ⟨channel, users + 1⟩)) free
        (s.connectAgain channelID channel).1 := by
  have husers := Leases.users_of_some hm
  obtain ⟨t₁, t₂, hremove, hput, hmaps, hmax⟩ :=
    h.status.replace (k := channelID) (v := users) (by rw [hm]; rfl) (users + 1)
  have hwrap : wrap (users + 1) = users + 1 := by
    rw [Multiset.count_cons_self, ← h.users, husers] at hlimit
    exact wrap_of_lt hlimit
  have hstate : s.connectAgain channelID channel =
      ({ s with channelStatusHashTable := t₂ }, channel) := by
    unfold ChannelManager.connectAgain
    rw [hremove]
    dsimp only
    rw [hwrap, hput]
  rw [hstate]
  exact ⟨rfl, h.setUsers hm hmaps (hmax.trans h.status_capacity) (Nat.succ_pos users)
    (h.count_users channelID users _ rfl husers)⟩

/-- The first connection takes a channel from the free list. -/
theorem connectFirst (h : Keeps n address outstanding m free s) (ha : Allocated n address)
    (hm : m channelID = none) (hlimit : (channelID ::ₘ outstanding).toFinset.card ≤ n)
    (capacity : Nat) :
    ∃ channel rest, free = channel :: rest ∧
      (s.connectFirst channelID capacity).2 = channel ∧
      (s.connectFirst channelID capacity).1.channels channel =
        channelInit (s.channels channel) channelID capacity ∧
      Keeps n address (channelID ::ₘ outstanding)
        (Function.update m channelID (some ⟨channel, 1⟩)) rest
        (s.connectFirst channelID capacity).1 := by
  have hnot : channelID ∉ outstanding := fun hmem => h.mem_outstanding_iff.mp hmem hm
  obtain ⟨hroom, hroom', hfree⟩ := h.card_outstanding
  rw [Multiset.toFinset_cons, Finset.card_insert_of_notMem (by rwa [Multiset.mem_toFinset])]
    at hlimit
  -- fewer channels are in use than there are, so the free list has a head
  cases free with
  | nil =>
    rw [List.length_nil] at hfree
    omega
  | cons channel rest =>
    obtain ⟨hhead, htail⟩ := Path.cons_iff.mp h.freeList
    have hchannel := eq_of_toPtr hhead
    have hne : channel ≠ NULL := ne_null_of_mem_pool ha (h.free_mem_pool List.mem_cons_self)
    have hnodup : channel ∉ rest := (List.nodup_cons.mp (Chain.nodup h.freeList)).1
    have hpool := h.pool
    obtain ⟨t₁, hput₁, hmaps₁, hcontent, hmax₁⟩ :=
      h.channel.put (k := channelID) (by rw [hm]; rfl) (by omega) channel
    obtain ⟨t₂, hput₂, hmaps₂, -, hmax₂⟩ :=
      h.status.put (k := channelID) (by rw [hm]; rfl) (by omega) 1
    have hstate : s.connectFirst channelID capacity =
        ({ channelHashTable := t₁, channelStatusHashTable := t₂,
           freeChannelsLinkedList := (s.channels channel).channelID,
           channels := Function.update s.channels channel
             (channelInit (s.channels channel) channelID capacity) }, channel) := by
      unfold ChannelManager.connectFirst
      rw [hchannel]
      dsimp only
      rw [if_neg hne, hput₁, hput₂]
    rw [hstate]
    refine ⟨channel, rest, rfl, rfl, Function.update_self .., ?_⟩
    refine
      { channel := ?_
        status := ?_
        channel_capacity := hmax₁.trans h.channel_capacity
        status_capacity := hmax₂.trans h.status_capacity
        proper := ?_
        users := ?_
        freeList := ?_
        pool := ?_ }
    · refine hmaps₁.congr ?_
      intro id
      rw [Function.update_apply, Function.update_apply]
      split <;> rfl
    · refine hmaps₂.congr ?_
      intro id
      rw [Function.update_apply, Function.update_apply]
      split <;> rfl
    · -- no other id leases a channel that was free
      refine Step.proper (.first hm ?_) h.proper
      intro id l hl heq
      exact h.not_mem_free ha hl (heq ▸ List.mem_cons_self)
    · exact h.count_users channelID 0 _ rfl (Leases.users_of_none hm)
    · -- the rest of the free list never ran through the channel that was initialised
      refine htail.congr ?_
      intro c hc
      have hcc : c ≠ channel := ne_of_mem_of_not_mem hc hnodup
      simp only [nextFree, Function.update_of_ne hcc]
    · dsimp only
      rw [hcontent, Multiset.map_cons, Multiset.add_cons, ← Multiset.cons_add, Multiset.cons_coe]
      exact hpool

/-! ### `disconnect` -/

theorem disconnect_absent (h : Keeps n address outstanding m free s) (hm : m channelID = none) :
    s.disconnect channelID =
      ({ s with
          channelStatusHashTable := { s.channelStatusHashTable with validValueFlag := 0 } },
        0) := by
  unfold disconnect
  rw [h.checkAlive_eq, Leases.users_of_none hm, hm]
  rfl

theorem count_erase (h : Keeps n address outstanding m free s) {l : Lease Nat}
    (hm : m channelID = some l) (l' : Option (Lease Nat))
    (hl' : l'.elim 0 Lease.users + 1 = l.users) (id : Nat) :
    Leases.users (Function.update m channelID l') id = (outstanding.erase channelID).count id := by
  have husers := Leases.users_of_some hm
  rw [users_update]
  split
  · rename_i hid
    rw [hid, Multiset.count_erase_self, ← h.users, husers]
    omega
  · rename_i hid
    rw [Multiset.count_erase_of_ne hid, ← h.users]

/-- A disconnection that leaves others. -/
theorem disconnect_shared (h : Keeps n address outstanding m free s) {channel users : Nat}
    (hm : m channelID = some ⟨channel, users + 2⟩) :
    (s.disconnect channelID).2 = 1 ∧
      Keeps n address (outstanding.erase channelID)
        (Function.update m channelID (some ⟨channel, users + 1⟩)) free
        (s.disconnect channelID).1 := by
  have halive := h.setStatusFlag ((m channelID).map Lease.users)
  obtain ⟨t₁, t₂, hremove, hput, hmaps, hmax⟩ :=
    halive.status.replace (k := channelID) (v := users + 2) (by rw [hm]; rfl) (users + 1)
  have hstate : s.disconnect channelID = ({ s with channelStatusHashTable := t₂ }, 1) := by
    unfold disconnect
    rw [h.checkAlive_eq, Leases.users_of_some hm]
    dsimp only
    rw [if_neg (by omega), hremove]
    dsimp only
    rw [decr_succ, if_pos (by omega), hput]
  rw [hstate]
  exact ⟨rfl, h.setUsers hm hmaps (hmax.trans halive.status_capacity) (Nat.succ_pos users)
    (h.count_erase hm _ rfl)⟩

/-- The last disconnection gives the channel back. -/
theorem disconnect_last (h : Keeps n address outstanding m free s) (ha : Allocated n address)
    {channel : Nat} (hm : m channelID = some ⟨channel, 1⟩) :
    (s.disconnect channelID).2 = 1 ∧
      Keeps n address (outstanding.erase channelID) (Function.update m channelID none)
        (channel :: free) (s.disconnect channelID).1 := by
  have halive := h.setStatusFlag ((m channelID).map Lease.users)
  have hfree : channel ∉ free := h.not_mem_free ha hm
  have hne : channel ≠ NULL := ne_null_of_mem_pool ha (h.resource_mem_pool hm)
  have hpool := h.pool
  obtain ⟨t₁, hremove₁, hmaps₁, -, hmax₁, -⟩ :=
    halive.status.remove_some (k := channelID) (v := 1) (by rw [hm]; rfl)
  obtain ⟨t₂, hremove₂, hmaps₂, hcontent, hmax₂, -⟩ :=
    h.channel.remove_some (k := channelID) (v := channel) (by rw [hm]; rfl)
  -- the count reaches zero: both tables drop the id, and the channel is pushed on the list
  have hstate : s.disconnect channelID =
      ({ channelHashTable := t₂, channelStatusHashTable := t₁, freeChannelsLinkedList := channel,
         channels := Function.update s.channels channel
           { s.channels channel with channelID := s.freeChannelsLinkedList } }, 1) := by
    unfold disconnect recycle
    rw [h.checkAlive_eq, Leases.users_of_some hm]
    dsimp only
    rw [if_neg Nat.one_ne_zero, hremove₁]
    dsimp only
    rw [decr_succ, if_neg (fun hzero => hzero rfl), hremove₂]
  rw [hstate]
  refine ⟨rfl,
    { channel := ?_
      status := ?_
      channel_capacity := hmax₂.trans h.channel_capacity
      status_capacity := hmax₁.trans halive.status_capacity
      proper := (Step.last hm).proper h.proper
      users := h.count_erase hm none rfl
      freeList := ?_
      pool := ?_ }⟩
  · refine hmaps₂.congr ?_
    intro id
    rw [Function.update_apply, Function.update_apply]
    split <;> rfl
  · refine hmaps₁.congr ?_
    intro id
    rw [Function.update_apply, Function.update_apply]
    split <;> rfl
  · refine Path.cons_iff.mpr ⟨toPtr_of_ne hne, ?_⟩
    simp only [nextFree, Function.update_self]
    refine h.freeList.congr ?_
    intro c hc
    have hcc : c ≠ channel := ne_of_mem_of_not_mem hc hfree
    simp only [nextFree, Function.update_of_ne hcc]
  · dsimp only
    rw [← Multiset.cons_coe, Multiset.cons_add, ← Multiset.add_cons, ← hpool, ← hcontent,
      Multiset.map_cons]

/-! ### One call -/

theorem use (h : Keeps n address outstanding m free s) (channel : Nat)
    (readTokens writeTokens : Semaphore) (queueLock : Mutex) (queue : Queue) :
    Keeps n address outstanding m free
      (s.use channel readTokens writeTokens queueLock queue) :=
  { h with
      freeList := h.freeList.congr fun c _ => by
        simp only [nextFree, ChannelManager.use, Function.update_apply]
        split
        · rename_i hc
          rw [hc]
        · rfl }

theorem connect_refused {capacity : Nat}
    (h : channelID = NULL ∨ capacity > MAX_ALLOWED_CHANNEL_CAPACITY) :
    s.connect channelID capacity = (s, NULL) := by
  unfold connect
  split
  · rfl
  · rename_i hne
    rw [if_pos (h.resolve_left hne)]

/-- A connect that is not refused is one of the two branches behind the lookup. -/
theorem connect_eq (h : Keeps n address outstanding m free s) (ha : Allocated n address)
    {capacity : Nat} (hid : channelID ≠ NULL) (hc : capacity ≤ MAX_ALLOWED_CHANNEL_CAPACITY) :
    ∃ s', Keeps n address outstanding m free s' ∧ s'.channels = s.channels ∧
      s.connect channelID capacity =
        match m channelID with
        | some l => s'.connectAgain channelID l.resource
        | none => s'.connectFirst channelID capacity := by
  refine ⟨_, h.setChannelFlag ((m channelID).map Lease.resource), rfl, ?_⟩
  unfold connect
  rw [if_neg hid, if_neg (by omega), h.channel.get]
  cases hm : m channelID with
  | none => rfl
  | some l =>
    have hne : l.resource ≠ NULL := ne_null_of_mem_pool ha (h.resource_mem_pool hm)
    exact if_pos hne

/-- The connect of an ID without users that is within the limits. -/
theorem connect_first (h : Keeps n address outstanding m free s) (ha : Allocated n address)
    {capacity : Nat} (hid : channelID ≠ NULL) (hc : capacity ≤ MAX_ALLOWED_CHANNEL_CAPACITY)
    (hm : m channelID = none) (hlimit : (channelID ::ₘ outstanding).toFinset.card ≤ n) :
    ∃ channel rest, free = channel :: rest ∧ (s.connect channelID capacity).2 = channel ∧
      (s.connect channelID capacity).1.channels channel =
        channelInit (s.channels channel) channelID capacity ∧
      Keeps n address (channelID ::ₘ outstanding)
        (Function.update m channelID (some ⟨channel, 1⟩)) rest
        (s.connect channelID capacity).1 := by
  obtain ⟨s', h', hchannels, hconnect⟩ := h.connect_eq ha hid hc
  rw [hm] at hconnect
  rw [hconnect, ← hchannels]
  exact h'.connectFirst ha hm hlimit capacity

theorem connect_step (h : Keeps n address outstanding m free s) (ha : Allocated n address)
    (capacity : Nat)
    (hcard : ((Call.connect channelID capacity).connections outstanding).toFinset.card ≤ n)
    (hcount : ∀ id ∈ (Call.connect channelID capacity).connections outstanding,
      ((Call.connect channelID capacity).connections outstanding).count id < 2 ^ 32) :
    ∃ m' free', Keeps n address ((Call.connect channelID capacity).connections outstanding) m'
        free' (s.connect channelID capacity).1 ∧
      Step m (.acquire channelID (toPtr (s.connect channelID capacity).2)) m' := by
  by_cases hargs : channelID ≠ NULL ∧ capacity ≤ MAX_ALLOWED_CHANNEL_CAPACITY
  · simp only [Call.connections, if_pos hargs] at hcard hcount ⊢
    cases hm : m channelID with
    | none =>
      -- the first connection takes the first channel of the pool
      obtain ⟨channel, rest, hfree, hreturned, -, hkeeps⟩ :=
        h.connect_first ha hargs.1 hargs.2 hm hcard
      have hmem : channel ∈ free := hfree ▸ List.mem_cons_self
      refine ⟨_, _, hkeeps, ?_⟩
      rw [hreturned, toPtr_of_ne (ne_null_of_mem_pool ha (h.free_mem_pool hmem))]
      exact .first hm fun id l hl heq => h.not_mem_free ha hl (heq ▸ hmem)
    | some l =>
      -- a further connection counts one user more
      obtain ⟨s', h', -, hconnect⟩ := h.connect_eq ha hargs.1 hargs.2
      rw [hm] at hconnect
      obtain ⟨hreturned, hkeeps⟩ :=
        h'.connectAgain hm (hcount channelID (Multiset.mem_cons_self _ _))
      rw [hconnect]
      refine ⟨_, _, hkeeps, ?_⟩
      rw [hreturned, toPtr_of_ne (ne_null_of_mem_pool ha (h.resource_mem_pool hm))]
      exact .again hm
  · have hrefused : channelID = NULL ∨ capacity > MAX_ALLOWED_CHANNEL_CAPACITY := by
      by_cases hid : channelID = NULL
      · exact .inl hid
      · exact .inr (not_le.mp fun hle => hargs ⟨hid, hle⟩)
    simp only [Call.connections, if_neg hargs] at hcard hcount ⊢
    rw [connect_refused hrefused]
    exact ⟨m, free, h, .refuse m channelID⟩

theorem disconnect_step (h : Keeps n address outstanding m free s) (ha : Allocated n address)
    (channelID : Nat) :
    ∃ m' free', Keeps n address (outstanding.erase channelID) m' free'
        (s.disconnect channelID).1 ∧
      Step m (.release channelID (decide ((s.disconnect channelID).2 ≠ 0))) m' := by
  cases hm : m channelID with
  | none =>
    have hnot : channelID ∉ outstanding := fun hmem => h.mem_outstanding_iff.mp hmem hm
    rw [h.disconnect_absent hm, Multiset.erase_of_notMem hnot]
    exact ⟨m, free, h.setStatusFlag none, .absent hm⟩
  | some l =>
    obtain ⟨channel, users⟩ := l
    have hused := h.proper.used channelID _ hm
    match users with
    | 1 =>
      obtain ⟨hreturned, hkeeps⟩ := h.disconnect_last ha hm
      rw [hreturned]
      exact ⟨_, _, hkeeps, .last hm⟩
    | users + 2 =>
      obtain ⟨hreturned, hkeeps⟩ := h.disconnect_shared hm
      rw [hreturned]
      exact ⟨_, _, hkeeps, .release hm⟩

/-- **One call** within the limits is a step of the specification. -/
theorem step (h : Keeps n address outstanding m free s) (ha : Allocated n address) (call : Call)
    (hcard : (call.connections outstanding).toFinset.card ≤ n)
    (hcount : ∀ id ∈ call.connections outstanding,
      (call.connections outstanding).count id < 2 ^ 32) :
    ∃ m' free', Keeps n address (call.connections outstanding) m' free' (call.next s) ∧
      Step m (call.answer s) m' := by
  cases call with
  | connect channelID capacity => exact h.connect_step ha capacity hcard hcount
  | disconnect channelID => exact h.disconnect_step ha channelID
  | checkAlive channelID =>
    refine ⟨m, free, ?_, ?_⟩
    · simp only [Call.next, h.checkAlive_eq]
      exact h.setStatusFlag _
    · simp only [Call.answer, h.checkAlive_eq]
      exact .ask m channelID
  | use channel readTokens writeTokens queueLock queue =>
    exact ⟨m, free, h.use channel readTokens writeTokens queueLock queue, .other m⟩

end Keeps

/-! ## Runs -/

variable {n : Nat} {address : Nat → Nat}

@[simp] theorem allocateChannels_tables (queueMemory : Nat → Nat → Nat) (i : Nat)
    (s : ChannelManager) :
    (allocateChannels address queueMemory i s).channelHashTable = s.channelHashTable ∧
      (allocateChannels address queueMemory i s).channelStatusHashTable =
        s.channelStatusHashTable := by
  induction i with
  | zero => exact ⟨rfl, rfl⟩
  | succ i ih => exact ih

/-- The first `i` channels are on the free list, the last one first. -/
theorem allocateChannels_freeList (ha : Allocated n address) (queueMemory : Nat → Nat → Nat)
    {s : ChannelManager} (hs : s.freeChannelsLinkedList = NULL) {i : Nat} (hi : i ≤ n) :
    Chain (allocateChannels address queueMemory i s).nextFree
      (toPtr (allocateChannels address queueMemory i s).freeChannelsLinkedList)
      ((List.range i).map address).reverse := by
  induction i with
  | zero =>
    simp only [allocateChannels, hs]
    exact .nil none
  | succ i ih =>
    rw [List.range_succ, List.map_append, List.reverse_append]
    refine Path.cons_iff.mpr ⟨toPtr_of_ne (ha.ne_null i (by omega)), ?_⟩
    simp only [allocateChannels, nextFree, Function.update_self]
    refine (ih (by omega)).congr ?_
    intro c hc
    rw [List.mem_reverse, List.mem_map] at hc
    obtain ⟨j, hj, rfl⟩ := hc
    have hij : address j ≠ address i := fun heq => by
      have hji := ha.inj j (by have := List.mem_range.mp hj; omega) i (by omega) heq
      have hlt := List.mem_range.mp hj
      omega
    simp only [nextFree, Function.update_of_ne hij]

/-- `initialize_channelManager` lends nothing and puts every channel on the free
list. -/
theorem initializeChannelManager_keeps (ha : Allocated n address)
    (memory memory' : Nat → HashtableValue) (flag flag' : Nat) (queueMemory : Nat → Nat → Nat)
    (channels : Nat → Channel) :
    Keeps n address 0 (fun _ => none) ((List.range n).map address).reverse
      (initializeChannelManager n address memory memory' flag flag' queueMemory channels) := by
  have hmaps : ∀ memory flag, (Hashtable.newHashtable n NUM_BUCKETS_FOR_CHANNELS_HASHTABLE memory
      flag).Maps fun _ => none := Hashtable.newHashtable_maps (by decide)
  unfold initializeChannelManager
  refine
    { channel := ?_
      status := ?_
      channel_capacity := ?_
      status_capacity := ?_
      proper := ⟨fun _ _ h => absurd h (by simp), fun _ _ _ _ h => absurd h (by simp)⟩
      users := fun _ => rfl
      freeList := allocateChannels_freeList ha queueMemory rfl (Nat.le_refl n)
      pool := ?_ }
  · rw [(allocateChannels_tables queueMemory n _).1]
    exact hmaps memory flag
  · rw [(allocateChannels_tables queueMemory n _).2]
    exact hmaps memory' flag'
  · rw [(allocateChannels_tables queueMemory n _).1]
    rfl
  · rw [(allocateChannels_tables queueMemory n _).2]
    rfl
  · rw [(allocateChannels_tables queueMemory n _).1, Hashtable.newHashtable_content,
      Multiset.map_zero, add_zero, Multiset.coe_reverse, ← Multiset.map_coe]
    rfl

/-- The run form of `Keeps.step`. -/
theorem Keeps.run (ha : Allocated n address) {outstanding : Multiset Nat} {m : Leases Nat Nat}
    {free : List Nat} {s : ChannelManager} (h : Keeps n address outstanding m free s)
    {calls : List Call} (hcalls : WithinLimits n outstanding calls) :
    ∃ m' free', Keeps n address (calls.foldl Call.connections outstanding) m' free'
        (calls.foldl Call.next s) ∧
      Run Step m (transcript Call.next Call.answer s calls) m' := by
  induction calls generalizing outstanding m free s with
  | nil => exact ⟨m, free, h, .nil m⟩
  | cons call calls ih =>
    obtain ⟨hcard, hcount, hrest⟩ := hcalls
    obtain ⟨m₁, free₁, h₁, hstep⟩ := h.step ha call hcard hcount
    obtain ⟨m₂, free₂, h₂, hrun⟩ := ih h₁ hrest
    exact ⟨m₂, free₂, h₂, .cons hstep hrun⟩

/-- What holds after a run with these events that leaves `outstanding`
connections. -/
structure CountsReferences (n : Nat) (address : Nat → Nat) (outstanding : Multiset Nat)
    (events : List (Event Nat Nat)) (s : ChannelManager) : Prop where
  run : Run Step (fun _ => none) events s.leases
  alive : ∀ channelID, (s.checkAlive channelID).2 + (events.map (releases channelID)).sum =
    (events.map (acquires channelID)).sum
  /-- The connections that the limits are about are those. -/
  connections : ∀ channelID, (s.checkAlive channelID).2 = outstanding.count channelID
  distinct : s.leases.Proper
  /-- A channel that is bound is as `channel_init` leaves it. -/
  bind : ∀ channelID capacity, channelID ≠ NULL → capacity ≤ MAX_ALLOWED_CHANNEL_CAPACITY →
    (s.checkAlive channelID).2 = 0 → (channelID ::ₘ outstanding).toFinset.card ≤ n →
    (s.connect channelID capacity).2 ≠ NULL ∧
      ((s.connect channelID capacity).1.channels (s.connect channelID capacity).2).queue.content =
        [] ∧
      ((s.connect channelID capacity).1.channels
        (s.connect channelID capacity).2).readTokens.availableTokens = 0 ∧
      ((s.connect channelID capacity).1.channels
        (s.connect channelID capacity).2).writeTokens.availableTokens = capacity
  connect_refused : ∀ channelID capacity,
    channelID = NULL ∨ capacity > MAX_ALLOWED_CHANNEL_CAPACITY →
    s.connect channelID capacity = (s, NULL)
  disconnect_refused : ∀ channelID, (s.checkAlive channelID).2 = 0 →
    s.disconnect channelID =
      ({ s with
          channelStatusHashTable := { s.channelStatusHashTable with validValueFlag := 0 } }, 0)
  /-- The table binds each ID with users to the channel lent to it. -/
  bound : ∀ channelID channel, (channelID, channel) ∈ s.channelHashTable.content ↔
    ∃ users, s.leases channelID = some ⟨channel, users⟩
  /-- The free list and the bound channels are all channels, each once. -/
  channels : ∃ free, Chain s.nextFree (toPtr s.freeChannelsLinkedList) free ∧
    (free : Multiset Nat) + s.channelHashTable.content.map Prod.snd = pool n address
  pool_nodup : (pool n address).Nodup

theorem Keeps.countsReferences (ha : Allocated n address) {outstanding : Multiset Nat}
    {m : Leases Nat Nat} {free : List Nat} {s : ChannelManager} {events : List (Event Nat Nat)}
    (h : Keeps n address outstanding m free s) (hrun : Run Step (fun _ => none) events m) :
    CountsReferences n address outstanding events s := by
  have hleases := h.leases_eq
  have halive : ∀ channelID, (s.checkAlive channelID).2 = m.users channelID := fun channelID => by
    rw [h.checkAlive_eq]
  -- every lease has a user, so an ID without users has no channel
  have hnone : ∀ channelID, (s.checkAlive channelID).2 = 0 → m channelID = none := by
    intro channelID hzero
    cases hm : m channelID with
    | none => rfl
    | some l =>
      have hused := h.proper.used channelID l hm
      rw [halive, Leases.users_of_some hm] at hzero
      omega
  refine
    { run := hleases ▸ hrun
      alive := fun channelID => ?_
      connections := fun channelID => (halive channelID).trans (h.users channelID)
      distinct := hleases ▸ h.proper
      bind := fun channelID capacity hid hc hzero hlimit => ?_
      connect_refused := fun channelID capacity hrefused => Keeps.connect_refused hrefused
      disconnect_refused := fun channelID hzero => h.disconnect_absent (hnone channelID hzero)
      bound := fun channelID channel => ?_
      channels := ⟨free, h.freeList, h.pool⟩
      pool_nodup := Keeps.pool_nodup ha }
  · rw [halive, Run.users_add hrun channelID]
    exact Nat.zero_add _
  · obtain ⟨channel, rest, hfree, hreturned, hinit, -⟩ :=
      h.connect_first ha hid hc (hnone channelID hzero) hlimit
    have hmem : channel ∈ free := hfree ▸ List.mem_cons_self
    rw [hreturned, hinit]
    exact ⟨Keeps.ne_null_of_mem_pool ha (h.free_mem_pool hmem), rfl, rfl, rfl⟩
  · rw [hleases, h.channel.mem_content]
    cases hm : m channelID with
    | none => simp
    | some l =>
      obtain ⟨resource, users⟩ := l
      simp

/-- **Reference counting**: in every run of the callbacks on a manager of `n`
channels in which at most `n` IDs are connected at a time, whatever the tasks do
with their channels in between. -/
theorem channelManager_counts_references (ha : Allocated n address)
    (memory memory' : Nat → HashtableValue) (flag flag' : Nat) (queueMemory : Nat → Nat → Nat)
    (channels : Nat → Channel) {calls : List Call} (hcalls : WithinLimits n 0 calls) :
    CountsReferences n address (calls.foldl Call.connections 0)
      (transcript Call.next Call.answer
        (initializeChannelManager n address memory memory' flag flag' queueMemory channels) calls)
      (calls.foldl Call.next
        (initializeChannelManager n address memory memory' flag flag' queueMemory channels)) := by
  obtain ⟨m, free, h, hrun⟩ := (initializeChannelManager_keeps ha memory memory' flag flag'
    queueMemory channels).run ha hcalls
  exact h.countsReferences ha hrun

/-- One channel, which is bound to 5, given back and bound to 6. -/
def rebinding : List Call :=
  [.connect 5 4, .connect 5 8, .connect 0 4, .disconnect 5, .disconnect 7, .disconnect 5,
    .connect 6 16, .checkAlive 6]

theorem channelManager_counts_references_rebinding :
    CountsReferences 1 (fun _ => 4096) (rebinding.foldl Call.connections 0)
      (transcript Call.next Call.answer
        (initializeChannelManager 1 (fun _ => 4096) (fun _ => ⟨none, 0, 0⟩) (fun _ => ⟨none, 0, 0⟩)
          0 0 (fun _ _ => 0) fun _ => newChannel 0 0 fun _ => 0) rebinding)
      (rebinding.foldl Call.next
        (initializeChannelManager 1 (fun _ => 4096) (fun _ => ⟨none, 0, 0⟩) (fun _ => ⟨none, 0, 0⟩)
          0 0 (fun _ _ => 0) fun _ => newChannel 0 0 fun _ => 0)) :=
  channelManager_counts_references ⟨by decide, by decide⟩ _ _ 0 0 _ _ (by decide)

end DocetOS.ChannelManager
