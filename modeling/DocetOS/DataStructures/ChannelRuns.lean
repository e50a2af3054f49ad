import DocetOS.DataStructures.Channel

/-!
# The tokens of a channel

`Counted`: a read token, or a task that has taken one or is about to give one,
stands for each word in the queue, and likewise for each free place. Every step
keeps this (`Counted.step`), so the tokens and the tasks in flight add up to the
capacity, nobody waits for a token with the lock held, and the queue functions
never refuse (`tokens_conserved`).
-/

namespace DocetOS

/-- The call has taken its token and not moved the pointer of the queue. -/
def ChannelPc.hasTaken : ChannelPc → Bool
  | .lock | .check | .access | .advance _ => true
  | _ => false

/-- The call has used the queue and still has to give its token. -/
def ChannelPc.mustGive : ChannelPc → Bool
  | .giveToken _ | .giveWait _ => true
  | _ => false

namespace ChannelSystem

/-- The task has taken a token in its current call and not yet given one. -/
def inFlight : Option (ChannelCall × ChannelPc) → Bool
  | some (_, pc) => pc.hasTaken || pc.mustGive
  | none => false

/-- The task stands for a word in the queue: a reader before, a writer after its
use of the queue. -/
def holdsWord : Option (ChannelCall × ChannelPc) → Bool
  | some (.write _, pc) => pc.mustGive
  | some (.read, pc) => pc.hasTaken
  | none => false

/-- The task stands for a free place. -/
def holdsSpace : Option (ChannelCall × ChannelPc) → Bool
  | some (.write _, pc) => pc.hasTaken
  | some (.read, pc) => pc.mustGive
  | none => false

/-- The task waits for room for its token, with the lock held. -/
def blocked : Option (ChannelCall × ChannelPc) → Bool
  | some (_, .giveWait _) => true
  | _ => false

/-! ## The count -/

structure Counted (k : Nat) (s : ChannelSystem) : Prop where
  words_finite : (Lib.places s.pc holdsWord).Finite
  spaces_finite : (Lib.places s.pc holdsSpace).Finite
  words : s.channel.queue.length =
    s.channel.readTokens.availableTokens + Lib.census s.pc holdsWord
  spaces : s.channel.queue.length + s.channel.writeTokens.availableTokens +
    Lib.census s.pc holdsSpace = k
  not_blocked : ∀ task, blocked (s.pc task) = false
  maxRead : s.channel.readTokens.maxTokens = k
  maxWrite : s.channel.writeTokens.maxTokens = k
  room : k ≤ s.channel.queue.memoryEnd
  lt : k < 4294967296

section Steps

variable {k : Nat} {s s' x : ChannelSystem} {task stack : Nat} {function : ChannelCall}
  {pc : ChannelPc}

/-- What a step of the machine is. -/
theorem step_cases {e : ChannelEvent} (h : s.step e = some s') :
    (∃ task function, e = .call task function ∧ task ≠ NULL ∧ s.pc task = none ∧
      s' = s.goTo task (some (function, .takeToken))) ∨
    (∃ task stack function pc, e = .step task stack ∧ s.pc task = some (function, pc) ∧
      s.advance task stack function pc = some s') := by
  cases e with
  | call task function =>
    simp only [step] at h
    split at h
    · cases h
    · rename_i hnull
      split at h
      · rename_i hpc
        cases h
        exact .inl ⟨task, function, rfl, hnull, hpc, rfl⟩
      · cases h
  | step task stack =>
    simp only [step] at h
    split at h
    · cases h
    · rename_i function pc hpc
      exact .inr ⟨task, stack, function, pc, rfl, hpc, h⟩

/-- A step keeps the count when the words, the read tokens and the tasks that
stand for words change together, and likewise for the free places. -/
theorem Counted.goTo (h : Counted k s) (task : Nat) (place : Option (ChannelCall × ChannelPc))
    (hpc : x.pc = s.pc) (hplace : blocked place = false)
    (hwords : x.channel.queue.length + (holdsWord (s.pc task)).toNat +
        s.channel.readTokens.availableTokens =
      s.channel.queue.length + (holdsWord place).toNat + x.channel.readTokens.availableTokens)
    (hspaces : x.channel.queue.length + x.channel.writeTokens.availableTokens +
        (holdsSpace place).toNat =
      s.channel.queue.length + s.channel.writeTokens.availableTokens +
        (holdsSpace (s.pc task)).toNat)
    (hread : x.channel.readTokens.maxTokens = s.channel.readTokens.maxTokens)
    (hwrite : x.channel.writeTokens.maxTokens = s.channel.writeTokens.maxTokens)
    (hend : x.channel.queue.memoryEnd = s.channel.queue.memoryEnd) :
    Counted k (x.goTo task place) := by
  -- moving one task changes the two numbers of tasks by what the place says
  have hw := Lib.census_move h.words_finite task place
  have hs := Lib.census_move h.spaces_finite task place
  have := h.words
  have := h.spaces
  refine
    { words_finite := ?_
      spaces_finite := ?_
      words := ?_
      spaces := ?_
      not_blocked := ?_
      maxRead := hread.trans h.maxRead
      maxWrite := hwrite.trans h.maxWrite
      room := h.room.trans_eq hend.symm
      lt := h.lt }
  · show (Lib.places (Function.update x.pc task place) _).Finite
    rw [hpc]
    exact Lib.places_finite_update h.words_finite task place
  · show (Lib.places (Function.update x.pc task place) _).Finite
    rw [hpc]
    exact Lib.places_finite_update h.spaces_finite task place
  · show x.channel.queue.length = x.channel.readTokens.availableTokens +
      Lib.census (Function.update x.pc task place) _
    rw [hpc]
    omega
  · show x.channel.queue.length + x.channel.writeTokens.availableTokens +
      Lib.census (Function.update x.pc task place) _ = k
    rw [hpc]
    omega
  · intro other
    show blocked (Function.update x.pc task place other) = false
    rw [hpc]
    by_cases hother : other = task
    · rw [hother, Function.update_self]
      exact hplace
    · rw [Function.update_of_ne hother]
      exact h.not_blocked other

/-- A writer that stands for a free place finds one. -/
theorem Counted.not_full (h : Counted k s) (hs : holdsSpace (s.pc task) = true) :
    s.channel.queue.isFull = false := by
  have hpos := Lib.census_pos h.spaces_finite hs
  have hspaces := h.spaces
  have hroom := h.room
  cases hfull : s.channel.queue.isFull
  · rfl
  · have := Queue.isFull_iff.mp hfull
    omega

/-- A reader that stands for a word finds one. -/
theorem Counted.not_empty (h : Counted k s) (hw : holdsWord (s.pc task) = true) :
    s.channel.queue.isEmpty = false := by
  have hpos := Lib.census_pos h.words_finite hw
  have hwords := h.words
  cases hempty : s.channel.queue.isEmpty
  · rfl
  · have := Queue.isEmpty_iff.mp hempty
    omega

/-- A call that has taken its token is not refused by the queue. -/
theorem Counted.not_refused (h : Counted k s) (hpc : s.pc task = some (function, pc))
    (htaken : pc.hasTaken = true) : refused s.channel function = false := by
  cases function with
  | write word =>
    have hspace : holdsSpace (s.pc task) = true := by
      rw [hpc]
      exact htaken
    exact h.not_full hspace
  | read =>
    have hword : holdsWord (s.pc task) = true := by
      rw [hpc]
      exact htaken
    exact h.not_empty hword

/-- Taking a token. -/
theorem Counted.take (h : Counted k s) (hpc : s.pc task = some (function, .takeToken))
    {channel : Channel} (htake : function.take s.channel = some channel) :
    Counted k ({ s with channel }.goTo task (some (function, .lock))) := by
  cases function with
  | write word =>
    obtain ⟨tokens, hacquire, rfl⟩ := Option.map_eq_some_iff.mp htake
    obtain ⟨hpos, rfl⟩ := Semaphore.acquireToken_iff.mp hacquire
    refine h.goTo task _ rfl rfl ?_ ?_ rfl rfl rfl
    · simp [hpc, holdsWord, ChannelPc.mustGive]
    · simp only [hpc, holdsSpace, ChannelPc.hasTaken, Bool.toNat_true, Bool.toNat_false]
      omega
  | read =>
    obtain ⟨tokens, hacquire, rfl⟩ := Option.map_eq_some_iff.mp htake
    obtain ⟨hpos, rfl⟩ := Semaphore.acquireToken_iff.mp hacquire
    refine h.goTo task _ rfl rfl ?_ ?_ rfl rfl rfl
    · simp only [hpc, holdsWord, ChannelPc.hasTaken, Bool.toNat_true, Bool.toNat_false]
      omega
    · simp [hpc, holdsSpace, ChannelPc.mustGive]

/-- A call that still has to give its token can: the other side has not had all
its tokens back. -/
theorem Counted.give (h : Counted k s) (hpc : s.pc task = some (function, pc))
    (hgives : pc.mustGive = true) (data : Nat) :
    ∃ channel, function.give s.channel = some channel ∧
      Counted k ({ s with channel }.goTo task (some (function, .unlock data))) := by
  have hwords := h.words
  have hspaces := h.spaces
  have hlt := h.lt
  have htaken : pc.hasTaken = false := by
    cases pc <;> first | rfl | cases hgives
  cases function with
  | write word =>
    have hholds : holdsWord (s.pc task) = true := by
      rw [hpc]
      exact hgives
    have hspace : holdsSpace (s.pc task) = false := by
      rw [hpc]
      exact htaken
    -- the word it holds is counted, so not every token can be back
    have hpos := Lib.census_pos h.words_finite hholds
    have hroom : s.channel.readTokens.availableTokens < s.channel.readTokens.maxTokens := by
      rw [h.maxRead]
      omega
    have hgive := Semaphore.releaseToken_iff.mpr ⟨hroom, rfl⟩
    rw [wrap_of_lt (by omega)] at hgive
    refine ⟨_, Option.map_eq_some_iff.mpr ⟨_, hgive, rfl⟩, h.goTo task _ rfl rfl ?_ ?_ rfl rfl rfl⟩
    · show s.channel.queue.length + (holdsWord (s.pc task)).toNat + _ =
        s.channel.queue.length + 0 + (s.channel.readTokens.availableTokens + 1)
      rw [hholds, Bool.toNat_true]
      omega
    · show _ + _ + 0 = _ + _ + (holdsSpace (s.pc task)).toNat
      rw [hspace]
      rfl
  | read =>
    have hholds : holdsSpace (s.pc task) = true := by
      rw [hpc]
      exact hgives
    have hword : holdsWord (s.pc task) = false := by
      rw [hpc]
      exact htaken
    have hpos := Lib.census_pos h.spaces_finite hholds
    have hroom : s.channel.writeTokens.availableTokens < s.channel.writeTokens.maxTokens := by
      rw [h.maxWrite]
      omega
    have hgive := Semaphore.releaseToken_iff.mpr ⟨hroom, rfl⟩
    rw [wrap_of_lt (by omega)] at hgive
    refine ⟨_, Option.map_eq_some_iff.mpr ⟨_, hgive, rfl⟩, h.goTo task _ rfl rfl ?_ ?_ rfl rfl rfl⟩
    · show _ + (holdsWord (s.pc task)).toNat + _ = _ + 0 + _
      rw [hword]
      rfl
    · show s.channel.queue.length + (s.channel.writeTokens.availableTokens + 1) + 0 =
        s.channel.queue.length + _ + (holdsSpace (s.pc task)).toNat
      rw [hholds, Bool.toNat_true]
      omega

@[simp] theorem record_pc (s : ChannelSystem) (function : ChannelCall) (data : Nat) :
    (s.record function data).pc = s.pc := by
  cases function <;> rfl

@[simp] theorem record_channel (s : ChannelSystem) (function : ChannelCall) (data : Nat) :
    (s.record function data).channel = s.channel := by
  cases function <;> rfl

/-- Moving the pointer turns a free place into a word, or a word into a free
place. -/
theorem Counted.advanceRing (h : Counted k s) {data : Nat}
    (hpc : s.pc task = some (function, .advance data)) :
    Counted k (({ s with channel := advanceRing s.channel function }.record function data).goTo
      task (some (function, .giveToken data))) := by
  have hok := h.not_refused hpc rfl
  cases function with
  | write word =>
    have hlength := Queue.advanceWrite_length hok
    refine h.goTo task _ rfl rfl ?_ ?_ rfl rfl rfl
    · simp only [record_channel, ChannelSystem.advanceRing, hlength, hpc, holdsWord,
        ChannelPc.mustGive, Bool.toNat_true, Bool.toNat_false]
    · simp only [record_channel, ChannelSystem.advanceRing, hlength, hpc, holdsSpace,
        ChannelPc.hasTaken, Bool.toNat_true, Bool.toNat_false]
      omega
  | read =>
    have hlength := Queue.advanceRead_length hok
    refine h.goTo task _ rfl rfl ?_ ?_ rfl rfl rfl
    · simp only [record_channel, ChannelSystem.advanceRing, hpc, holdsWord,
        ChannelPc.hasTaken, Bool.toNat_true, Bool.toNat_false]
      omega
    · simp only [record_channel, ChannelSystem.advanceRing, hpc, holdsSpace,
        ChannelPc.mustGive, Bool.toNat_true, Bool.toNat_false]
      omega

/-- A step that neither takes nor gives tokens nor moves a pointer. -/
theorem Counted.still (h : Counted k s) (hpc : s.pc task = some (function, pc))
    (pc' : Option ChannelPc) (hx : x.pc = s.pc)
    (hplace : blocked (pc'.map fun pc' => (function, pc')) = false)
    (hread : x.channel.readTokens = s.channel.readTokens)
    (hwrite : x.channel.writeTokens = s.channel.writeTokens)
    (hlength : x.channel.queue.length = s.channel.queue.length)
    (hend : x.channel.queue.memoryEnd = s.channel.queue.memoryEnd)
    (htaken : pc.hasTaken = pc'.any ChannelPc.hasTaken)
    (hgives : pc.mustGive = pc'.any ChannelPc.mustGive) :
    Counted k (x.goTo task (pc'.map fun pc' => (function, pc'))) := by
  have hword : holdsWord (pc'.map fun pc' => (function, pc')) = holdsWord (s.pc task) := by
    rw [hpc]
    cases pc' <;> cases function <;> simp_all [holdsWord]
  have hspace : holdsSpace (pc'.map fun pc' => (function, pc')) = holdsSpace (s.pc task) := by
    rw [hpc]
    cases pc' <;> cases function <;> simp_all [holdsSpace]
  refine h.goTo task _ hx hplace ?_ ?_ (by rw [hread]) (by rw [hwrite]) hend
  · rw [hword, hlength, hread]
  · rw [hspace, hlength, hwrite]

/-- **Every step keeps the count.** -/
theorem Counted.advance (h : Counted k s) (hpc : s.pc task = some (function, pc))
    (hs : s.advance task stack function pc = some s') : Counted k s' := by
  cases pc <;> simp only [ChannelSystem.advance] at hs
  case takeToken =>
    split at hs <;> cases hs
    · exact h.take hpc ‹_›
    · exact h.still hpc (some .takeWait) rfl rfl rfl rfl rfl rfl rfl rfl
  case takeWait =>
    cases hs
    exact h.still hpc (some .takeToken) rfl rfl rfl rfl rfl rfl rfl rfl
  case lock =>
    obtain ⟨queueLock, -, rfl⟩ := Option.map_eq_some_iff.mp hs
    exact h.still hpc (some .check) rfl rfl rfl rfl rfl rfl rfl rfl
  case check =>
    -- with a token, the queue does not refuse
    rw [if_neg (by simp [h.not_refused hpc rfl])] at hs
    cases hs
    exact h.still hpc (some .access) rfl rfl rfl rfl rfl rfl rfl rfl
  case access =>
    cases function <;> cases hs
    · exact h.still hpc (some (.advance _)) rfl rfl rfl rfl rfl rfl rfl rfl
    · exact h.still hpc (some (.advance _)) rfl rfl rfl rfl rfl rfl rfl rfl
  case advance data =>
    cases hs
    exact h.advanceRing hpc
  case giveToken data =>
    obtain ⟨channel, hgive, hcounted⟩ := h.give hpc rfl data
    rw [hgive] at hs
    cases hs
    exact hcounted
  case giveWait data =>
    -- the other semaphore always has room
    have hblocked := h.not_blocked task
    rw [hpc] at hblocked
    cases hblocked
  case unlock data =>
    cases hs
    exact h.still hpc none rfl rfl rfl rfl rfl rfl rfl rfl

theorem Counted.step {e : ChannelEvent} (h : Counted k s) (hs : s.step e = some s') :
    Counted k s' := by
  rcases step_cases hs with ⟨task, function, rfl, -, hpc, rfl⟩ |
    ⟨task, stack, function, pc, rfl, hpc, hs⟩
  · refine h.goTo task _ rfl rfl ?_ ?_ rfl rfl rfl
    · rw [hpc]
      cases function <;> rfl
    · rw [hpc]
      cases function <;> rfl
  · exact h.advance hpc hs

end Steps

/-- What both ways of opening a channel leave. -/
theorem Opened.start {k : Nat} {channel : Channel} (h : Opened k channel) :
    channel.queue.length = 0 ∧ k ≤ channel.queue.memoryEnd ∧
      channel.readTokens = semaphoreInit 0 k ∧ channel.writeTokens = semaphoreInit k k ∧
      channel.queueLock.tcbPointer = NULL ∧ channel.queueLock.counter = 0 := by
  rcases h with ⟨channelID, memory, rfl⟩ | ⟨pooled, channelID, rfl, hend, hfree, hcounter⟩
  · exact ⟨rfl, Nat.le_refl k, rfl, rfl, rfl, rfl⟩
  · exact ⟨rfl, hend, rfl, rfl, hfree, hcounter⟩

theorem Counted.init {k : Nat} {s : ChannelSystem} (hk : k < 4294967296) (h : Fresh k s) :
    Counted k s := by
  obtain ⟨hlength, hend, hread, hwrite, -, -⟩ := h.channel.start
  have hnone : ∀ {P : Option (ChannelCall × ChannelPc) → Bool}, P none = false →
      ∀ task, P (s.pc task) = false := by
    intro P hP task
    rw [h.pc task]
    exact hP
  refine
    { words_finite := ?_
      spaces_finite := ?_
      words := ?_
      spaces := ?_
      not_blocked := hnone rfl
      maxRead := by rw [hread]; rfl
      maxWrite := by rw [hwrite]; rfl
      room := hend
      lt := hk }
  · rw [Lib.places_eq_empty (hnone rfl)]
    exact Set.finite_empty
  · rw [Lib.places_eq_empty (hnone rfl)]
    exact Set.finite_empty
  · rw [hlength, hread, Lib.census_eq_zero (hnone rfl)]
    rfl
  · rw [hlength, hwrite, Lib.census_eq_zero (hnone rfl)]
    exact Nat.zero_add k

theorem counted_of_reach {k : Nat} {s : ChannelSystem} (hk : k < 4294967296)
    (h : (channelMachine k).Reach s) : Counted k s :=
  h.invariant (fun _ => Counted.init hk) fun _ _ _ hs hstep => hs.step hstep

/-- A task stands for at most one of a word and a free place. -/
theorem holdsSpace_of_holdsWord {place : Option (ChannelCall × ChannelPc)}
    (h : holdsWord place = true) : holdsSpace place = false := by
  rcases place with _ | ⟨function, pc⟩
  · rfl
  · cases function <;> cases pc <;> first | rfl | cases h

theorem inFlight_eq : inFlight = fun place => holdsWord place || holdsSpace place := by
  funext place
  rcases place with _ | ⟨function, pc⟩
  · rfl
  · cases function <;> cases pc <;> rfl

/-- **The tokens of both semaphores and the tasks that have taken one and not yet
given one add up to the capacity.** So no task waits to give its token with the
lock held, no task writes to a full queue, and none reads from an empty one. -/
theorem tokens_conserved {k : Nat} {s : ChannelSystem} (hk : k < 4294967296)
    (h : (channelMachine k).Reach s) :
    (Lib.places s.pc inFlight).Finite ∧
      s.channel.readTokens.availableTokens + s.channel.writeTokens.availableTokens +
        Lib.census s.pc inFlight = k ∧
      (∀ task function data, s.pc task ≠ some (function, .giveWait data)) ∧
      (∀ task word, s.pc task = some (.write word, .check) → s.channel.queue.isFull = false) ∧
      ∀ task, s.pc task = some (.read, .check) → s.channel.queue.isEmpty = false := by
  have hc := counted_of_reach hk h
  have hwords := hc.words
  have hspaces := hc.spaces
  refine ⟨?_, ?_, ?_, ?_, ?_⟩
  · refine (hc.words_finite.union hc.spaces_finite).subset ?_
    intro task htask
    rw [inFlight_eq] at htask
    exact (Bool.or_eq_true _ _).mp htask
  · rw [inFlight_eq, Lib.census_or hc.words_finite hc.spaces_finite
      fun _ => holdsSpace_of_holdsWord]
    omega
  · intro task function data hpc
    have hblocked := hc.not_blocked task
    rw [hpc] at hblocked
    cases hblocked
  · intro task word hpc
    exact hc.not_refused hpc rfl
  · intro task hpc
    exact hc.not_refused hpc rfl

/-- Nobody uses the channel, whose ring has room for three words. -/
def samplePooled : ChannelSystem where
  channel := channelInit (newChannel 5 3 fun _ => 0) 9 1
  pc := fun _ => none
  written := []
  reads := []
  returned := []

theorem samplePooled_fresh : Fresh 1 samplePooled where
  channel := .inr ⟨newChannel 5 3 fun _ => 0, 9, rfl, by decide, rfl, rfl⟩
  pc := fun _ => rfl
  written := rfl
  reads := rfl
  returned := rfl

/-- The first `n` steps of a call of `task`. -/
def steps (task n : Nat) : List ChannelEvent := List.replicate n (.step task 99)

/-- A write by 1; a write by 3 that waits for the read by 2 and then moves the
pointer. -/
def sampleTraffic : List ChannelEvent :=
  .call 1 (.write 7) :: steps 1 7 ++ .call 3 (.write 8) :: steps 3 1 ++
    .call 2 .read :: steps 2 7 ++ steps 3 6

/-- The second writer has taken the token and has not given one yet. -/
theorem tokens_conserved_writerInFlight : ∃ s, (channelMachine 1).Reach s ∧
    s.channel.readTokens.availableTokens = 0 ∧ s.channel.writeTokens.availableTokens = 0 ∧
    Lib.census s.pc inFlight = 1 := by
  obtain ⟨s, hrun, hread, hwrite⟩ := Lib.Machine.exists_run (M := channelMachine 1)
    (P := fun s => s.channel.readTokens.availableTokens = 0 ∧
      s.channel.writeTokens.availableTokens = 0)
    (s := samplePooled) (e := sampleTraffic) (by decide +kernel)
  have hreach := (Lib.Machine.Reach.init samplePooled_fresh).run hrun
  have hsum := (tokens_conserved (by decide) hreach).2.1
  exact ⟨s, hreach, hread, hwrite, by omega⟩

end ChannelSystem

end DocetOS
