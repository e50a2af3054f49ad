import DocetOS.DataStructures.HashtableKeys
import DocetOS.DataStructures.HashtableMap
import DocetOS.Lib.Machine
import DocetOS.OS.Waiting

/-!
# The two tables of waiting tasks

`waitingTasksHashTable_tcbAsKey` should be the inverse of
`waitingTasksHashTable_reasonAsKey`. Both are filled with mode 2, which refuses a
value that is anywhere in the *bucket* of the key, and the status code of the
second `put` is ignored: a task whose TCB address shares its bucket with a task
that already waits for the same reason is missing from the mirror.

The runs are those of any tasks that call `OS_wait` and `OS_notify` in any order,
on any reasons; what else they do is to write the mutexes and their lists of
acquired mutexes. `Mirrors` is the invariant; one step keeps it exactly when the
step is no wait in a bucket with a task that waits for the same reason
(`Mirrors.step`, `Mirrors.step_breaks`).
-/

namespace DocetOS

inductive WaitEvent where
  /-- A task is initialised on a block that held `memory`, and added. -/
  | addTask (tcb : Nat) (memory : TCB) (stack taskPriority : Nat)
  /-- The tasks write their lists of acquired mutexes and the mutexes. -/
  | memory (acquired : Nat → Nat) (mutexes : Nat → Mutex)
  | wait (task fuel reason checkCode isReasonMutex : Nat)
  | notify (task fuel reason : Nat)

namespace Sched

/-- `task` runs: it has been added and does not wait. -/
def Runs (s : Sched) (task : Nat) : Prop :=
  task ∈ s.scheduled ∧ (s.tcb task).state.wait = false

instance (s : Sched) (task : Nat) : Decidable (s.Runs task) := inferInstanceAs (Decidable (_ ∧ _))

/-- The context switch to `task`. -/
def switchTo (s : Sched) (task : Nat) : Sched := { s with currentTCB := task }

def waitStep (tasks : Finset Nat) (s : Sched) : WaitEvent → Option Sched
  | .addTask tcb memory stack taskPriority =>
    if tcb ∈ tasks ∧ tcb ∉ s.scheduled then
      some ((s.modifyTCB tcb fun _ => initialiseTCB memory stack).addTask tcb taskPriority)
    else none
  | .memory acquired mutexes =>
    some { s with
      tcb := fun task => { s.tcb task with acquiredResourcesLinkedList := acquired task }
      mutexes }
  | .wait task fuel reason checkCode isReasonMutex =>
    if s.Runs task ∧ reason ≠ NULL then
      (s.switchTo task).waitCallback fuel reason checkCode isReasonMutex
    else none
  | .notify task fuel reason =>
    if s.Runs task ∧ reason ≠ NULL then
      (s.switchTo task).nextCheckCode.notifyCallback fuel reason
    else none

/-- The scheduler has just been initialised. -/
def Initialised (s : Sched) : Prop :=
  ∃ N tcb mutexes currentTCB idleTCB ticks values flags nodes,
    s = initializeScheduler N tcb mutexes currentTCB idleTCB ticks values flags nodes

end Sched

/-- The runs of tasks that wait and notify. -/
def waitMachine (tasks : Finset Nat) : Lib.Machine Sched WaitEvent where
  init := Sched.Initialised
  step := Sched.waitStep tasks

namespace Sched

open Hashtable

/-- A task is stored under a reason iff the mirror maps it to the reason. The
answers about the tasks that were added are right. -/
structure Mirrored (s : Sched) : Prop where
  mirror : ∀ task reason, (reason, task) ∈ s.waiting ↔
    (s.waitingTasksHashTableTcbAsKey.get task).1.validValueFlag = 1 ∧
      (s.waitingTasksHashTableTcbAsKey.get task).2 = reason
  isTaskWaiting : ∀ task ∈ s.scheduled,
    (s.isTaskWaiting task).2 = 1 ↔ (s.tcb task).state.wait = true
  doesTaskExist : ∀ task ∈ s.scheduled, (s.tcb task).state.wait = true →
    (s.doesTaskExist task).2 = 1

/-- If the event is a wait that parks its task, no task in its bucket of the
mirror waits for the reason already. -/
def MirrorFits (s : Sched) : WaitEvent → Prop
  | .wait task _ reason checkCode _ => checkCode = s.checkCode →
    ∀ p ∈ s.waiting, p.1 = reason →
      s.waitingTasksHashTableTcbAsKey.bucketNumber p.2 ≠
        s.waitingTasksHashTableTcbAsKey.bucketNumber task
  | _ => True

/-- What every step that fits keeps. -/
structure Mirrors (tasks : Finset Nat) (s : Sched) : Prop where
  parked : Parked s
  known : ∀ task ∈ s.scheduled, task ∈ tasks ∧ task ≠ NULL
  scheduled : ∀ reason task, (reason, task) ∈ s.waiting → task ∈ s.scheduled ∧ reason ≠ NULL
  waits : ∀ task ∈ s.scheduled, (s.tcb task).state.wait = true →
    ∃ reason, (reason, task) ∈ s.waiting
  active : s.activeTasksHashTable.Keyed tasks
  inactive : ∀ reason task, (reason, task) ∈ s.waiting →
    ∀ v, (task, v) ∉ s.activeTasksHashTable.content
  room : tasks.card ≤ s.waitingTasksHashTableReasonAsKey.maximumCapacity
  room' : tasks.card ≤ s.waitingTasksHashTableTcbAsKey.maximumCapacity
  mirror : ∃ m, s.waitingTasksHashTableTcbAsKey.Maps m ∧
    ∀ task reason, m task = some reason ↔ (reason, task) ∈ s.waiting

namespace Mirrors

variable {tasks : Finset Nat} {s s' : Sched} {task reason : Nat}

theorem mirrored (h : Mirrors tasks s) : Mirrored s := by
  obtain ⟨m, hmaps, hm⟩ := h.mirror
  have hanswer : ∀ task ∈ s.scheduled,
      (s.isTaskWaiting task).2 = 1 ↔ (s.tcb task).state.wait = true := by
    intro task htask
    simp only [Sched.isTaskWaiting, hmaps.get]
    cases hmt : m task with
    | none =>
      have hnot : (s.tcb task).state.wait ≠ true := by
        intro hwait
        -- a waiting task is in the first table, and the second one mirrors it
        obtain ⟨reason, hmem⟩ := h.waits task htask hwait
        rw [(hm task reason).mpr hmem] at hmt
        cases hmt
      simp [Hashtable.found, hnot]
    | some reason =>
      have hmem := (hm task reason).mp hmt
      have hne := (h.scheduled reason task hmem).2
      simp [Hashtable.found, hne, h.parked.wait reason task hmem]
  refine ⟨?_, hanswer, ?_⟩
  · intro task reason
    rw [← hm, hmaps.get]
    cases m task <;> simp [Hashtable.found]
  · intro task htask hwait
    have hwaiting := (hanswer task htask).mpr hwait
    have hsame : ∀ s' : Sched, s'.waitingTasksHashTableTcbAsKey = s.waitingTasksHashTableTcbAsKey →
        (s'.isTaskWaiting task).2 = 1 := by
      intro s' heq
      rw [← hwaiting]
      simp only [Sched.isTaskWaiting, heq]
    have hlast := hsame ((s.isTaskActive task).1.isTaskSleeping task).1 rfl
    simp only [Sched.doesTaskExist]
    split
    · rfl
    · split
      · rfl
      · rw [if_pos (by rw [hlast]; exact Nat.one_ne_zero)]

/-- The tables have room for a task that does not wait. -/
theorem card_lt (h : Mirrors tasks s) (htask : task ∈ tasks)
    (hnew : ∀ reason, (reason, task) ∉ s.waiting) : s.waiting.card < tasks.card := by
  have hsub : (s.waiting.map Prod.snd).toFinset ⊆ tasks.erase task := by
    intro t ht
    obtain ⟨⟨r, t⟩, hp, rfl⟩ := Multiset.mem_map.mp (Multiset.mem_toFinset.mp ht)
    refine Finset.mem_erase.mpr ⟨?_, (h.known t (h.scheduled r t hp).1).1⟩
    rintro rfl
    exact hnew r hp
  have hcard := Finset.card_le_card hsub
  rw [Multiset.toFinset_card_of_nodup h.parked.once, Multiset.card_map,
    Finset.card_erase_of_mem htask] at hcard
  have hpos : 0 < tasks.card := Finset.card_pos.mpr ⟨task, htask⟩
  omega

/-- The mirror has as many entries as the table it mirrors. -/
theorem card_mirror {m : Nat → Option Nat} (h : Mirrors tasks s)
    (hmaps : s.waitingTasksHashTableTcbAsKey.Maps m)
    (hm : ∀ task reason, m task = some reason ↔ (reason, task) ∈ s.waiting) :
    s.waiting.card + s.waitingTasksHashTableTcbAsKey.remainingCapacity =
      s.waitingTasksHashTableTcbAsKey.maximumCapacity := by
  have hkeys : ∀ t, t ∈ (s.waiting.map Prod.snd).toFinset ↔ m t ≠ none := by
    intro t
    rw [Multiset.mem_toFinset, Multiset.mem_map, Option.ne_none_iff_exists']
    constructor
    · rintro ⟨⟨r, t⟩, hp, rfl⟩
      exact ⟨r, (hm t r).mpr hp⟩
    · rintro ⟨r, hr⟩
      exact ⟨(r, t), (hm t r).mp hr, rfl⟩
  have hcard := hmaps.card_add_remaining hkeys
  rwa [Multiset.toFinset_card_of_nodup h.parked.once, Multiset.card_map] at hcard

/-- A running task waits for nothing. -/
theorem not_waiting (h : Mirrors tasks s) (hruns : s.Runs task) (reason : Nat) :
    (reason, task) ∉ s.waiting := by
  intro hmem
  have hwait := h.parked.wait reason task hmem
  rw [hruns.2] at hwait
  cases hwait

theorem mirror_none {m : Nat → Option Nat} (h : Mirrors tasks s)
    (hm : ∀ task reason, m task = some reason ↔ (reason, task) ∈ s.waiting)
    (hruns : s.Runs task) : m task = none := by
  cases hmt : m task with
  | none => rfl
  | some r => exact absurd ((hm _ r).mp hmt) (h.not_waiting hruns r)

/-! ### Steps that leave the tables alone -/

theorem switchTo (h : Mirrors tasks s) (task : Nat) : Mirrors tasks (s.switchTo task) :=
  { h with parked := { h.parked with } }

theorem nextCheckCode (h : Mirrors tasks s) : Mirrors tasks s.nextCheckCode :=
  { h with parked := h.parked.nextCheckCode }

theorem inherits (h : Mirrors tasks s) (hi : Inherits s s') : Mirrors tasks s' := by
  -- of the first table only the flag changes, and no clause reads it
  have hwaiting := hi.waiting
  have hscheduled : s'.scheduled = s.scheduled := by rw [hi.rest]
  have hactive : s'.activeTasksHashTable = s.activeTasksHashTable := by rw [hi.rest]
  have htcbAsKey : s'.waitingTasksHashTableTcbAsKey = s.waitingTasksHashTableTcbAsKey := by
    rw [hi.rest]
  have hmax : s'.waitingTasksHashTableReasonAsKey.maximumCapacity =
      s.waitingTasksHashTableReasonAsKey.maximumCapacity := by
    obtain ⟨flag, htable⟩ := hi.reasons
    rw [htable]
  refine
    { parked := h.parked.inherits hi
      known := ?_
      scheduled := ?_
      waits := ?_
      active := ?_
      inactive := ?_
      room := hmax ▸ h.room
      room' := htcbAsKey ▸ h.room'
      mirror := ?_ }
  · rw [hscheduled]
    exact h.known
  · rw [hscheduled, hwaiting]
    exact h.scheduled
  · rw [hscheduled, hwaiting]
    intro t ht hwait
    rw [hi.state] at hwait
    exact h.waits t ht hwait
  · rw [hactive]
    exact h.active
  · rw [hactive, hwaiting]
    exact h.inactive
  · rw [htcbAsKey, hwaiting]
    exact h.mirror

theorem memory (h : Mirrors tasks s) (acquired : Nat → Nat) (mutexes : Nat → Mutex) :
    Mirrors tasks { s with
      tcb := fun task => { s.tcb task with acquiredResourcesLinkedList := acquired task }
      mutexes } :=
  { h with parked := { h.parked with } }

theorem addTask (h : Mirrors tasks s) (htask : task ∈ tasks) (hnew : task ∉ s.scheduled)
    (memory : TCB) (stack taskPriority : Nat) :
    Mirrors tasks
      ((s.modifyTCB task fun _ => initialiseTCB memory stack).addTask task taskPriority) := by
  have hne : ∀ r t, (r, t) ∈ s.waiting → t ≠ task := by
    rintro r t hrt rfl
    exact hnew (h.scheduled r t hrt).1
  -- the TCB written is not that of a task added before
  have hinit : Mirrors tasks (s.modifyTCB task fun _ => initialiseTCB memory stack) :=
    { h with
      parked :=
        { h.parked with
          wait := fun r t hrt => by
            simp only [modifyTCB, Function.update_of_ne (hne r t hrt)]
            exact h.parked.wait r t hrt }
      waits := fun t ht hwait => by
        have htt : t ≠ task := ne_of_mem_of_not_mem ht hnew
        simp only [modifyTCB, Function.update_of_ne htt] at hwait
        exact h.waits t ht hwait }
  simp only [Sched.addTask]
  split
  · exact hinit
  · split
    · exact hinit
    · split
      · exact hinit
      · rename_i hnull hstate hpriority
        refine
          { parked := { h.parked with wait := fun r t hrt => ?_ }
            known := fun t ht => ?_
            scheduled := fun r t hrt => ?_
            waits := fun t ht hwait => ?_
            active := ?_
            inactive := fun r t hrt v => ?_
            room := h.room
            room' := h.room'
            mirror := h.mirror }
        · simp only [modifyTCB, Function.update_of_ne (hne r t hrt)]
          exact h.parked.wait r t hrt
        · rcases List.mem_cons.mp ht with rfl | ht
          · exact ⟨htask, hnull⟩
          · exact h.known t ht
        · exact ⟨List.mem_cons_of_mem _ (h.scheduled r t hrt).1, (h.scheduled r t hrt).2⟩
        · simp only [modifyTCB, Function.update_self] at hwait
          rcases List.mem_cons.mp ht with rfl | ht
          · rw [Function.update_self] at hwait
            exact absurd hwait Bool.false_ne_true
          · have htt : t ≠ task := ne_of_mem_of_not_mem ht hnew
            simp only [Function.update_of_ne htt] at hwait
            exact h.waits t ht hwait
        · exact (h.active.put htask task).1
        · intro hv
          rcases (h.active.put htask task).2 _ hv with heq | hmem
          · exact hne r t hrt (congrArg Prod.fst heq)
          · exact h.inactive r t hrt v hmem

/-! ### Waiting -/

/-- A running task finds room in the table of reasons. -/
theorem put_reason (h : Mirrors tasks s) (hruns : s.Runs task) (reason : Nat) :
    ∃ table, s.waitingTasksHashTableReasonAsKey.put reason task
        .rejectMultipleIdenticalValuesPerKey = (table, 1) ∧ table.WF ∧
      table.content = (reason, task) ::ₘ s.waiting ∧
      table.maximumCapacity = s.waitingTasksHashTableReasonAsKey.maximumCapacity := by
  have hcard := h.card_lt (h.known task hruns.1).1 (h.not_waiting hruns)
  have hroom := h.room
  have htotal : _ + s.waiting.card = _ := h.parked.wf.card_content
  have hnew : ¬ s.waitingTasksHashTableReasonAsKey.Duplicate reason task
      .rejectMultipleIdenticalValuesPerKey := by
    rintro (⟨hmode, -⟩ | ⟨-, r, -, hmem⟩)
    · cases hmode
    · exact h.not_waiting hruns r hmem
  obtain ⟨table, hput, hwf, hcontent, -, hmax⟩ := put_of_room h.parked.wf (by omega) hnew
  exact ⟨table, hput, hwf, hcontent, hmax⟩

theorem park_eq {table : Hashtable}
    (hput : s.waitingTasksHashTableReasonAsKey.put reason s.currentTCB
      .rejectMultipleIdenticalValuesPerKey = (table, 1)) :
    s.park reason = { s with
      activeTasksHashTable := (s.activeTasksHashTable.remove s.currentTCB).1
      waitingTasksHashTableReasonAsKey := table
      waitingTasksHashTableTcbAsKey := (s.waitingTasksHashTableTcbAsKey.put s.currentTCB reason
        .rejectMultipleIdenticalValuesPerKey).1 }.modifyTCB s.currentTCB fun tcb =>
          { tcb with state := { tcb.state with wait := true } } := by
  simp only [Sched.park, hput]
  rfl

/-- The mirror refuses the pair iff a task in the bucket waits for the reason. -/
theorem duplicate_iff {m : Nat → Option Nat} (hmaps : s.waitingTasksHashTableTcbAsKey.Maps m)
    (hm : ∀ task reason, m task = some reason ↔ (reason, task) ∈ s.waiting) :
    s.waitingTasksHashTableTcbAsKey.Duplicate task reason .rejectMultipleIdenticalValuesPerKey ↔
      ∃ t, s.waitingTasksHashTableTcbAsKey.bucketNumber t =
        s.waitingTasksHashTableTcbAsKey.bucketNumber task ∧ (reason, t) ∈ s.waiting := by
  constructor
  · rintro (⟨hmode, -⟩ | ⟨-, t, hbucket, hmem⟩)
    · cases hmode
    · exact ⟨t, hbucket, (hm t reason).mp (hmaps.mem_content.mp hmem)⟩
  · rintro ⟨t, hbucket, hmem⟩
    exact .inr ⟨rfl, t, hbucket, hmaps.mem_content.mpr ((hm t reason).mpr hmem)⟩

/-- Parking a task whose bucket has no waiter of the reason. -/
theorem park (h : Mirrors tasks s) (hruns : s.Runs s.currentTCB) (hreason : reason ≠ NULL)
    (hfits : ∀ t, (reason, t) ∈ s.waiting → s.waitingTasksHashTableTcbAsKey.bucketNumber t ≠
      s.waitingTasksHashTableTcbAsKey.bucketNumber s.currentTCB) :
    Mirrors tasks (s.park reason) := by
  have hcurrent := h.known _ hruns.1
  obtain ⟨table, hput, hwf, hcontent, hmax⟩ := h.put_reason hruns reason
  obtain ⟨m, hmaps, hm⟩ := h.mirror
  have hnone := h.mirror_none hm hruns
  -- the mirror has as many entries as tasks wait, and the running task is not one of them
  have hroom : 0 < s.waitingTasksHashTableTcbAsKey.remainingCapacity := by
    have hcard := h.card_lt hcurrent.1 (h.not_waiting hruns)
    have htotal := h.card_mirror hmaps hm
    have hroom' := h.room'
    omega
  -- what the table refuses: a second task in a bucket with the same reason
  have hnew : ¬ s.waitingTasksHashTableTcbAsKey.Duplicate s.currentTCB reason
      .rejectMultipleIdenticalValuesPerKey := by
    intro hdup
    obtain ⟨t, hbucket, hmem⟩ := (duplicate_iff hmaps hm).mp hdup
    exact hfits t hmem hbucket
  obtain ⟨mirror, hput', hmaps', -, hmax'⟩ := hmaps.put_of_new hnone hroom hnew
  have hpark := park_eq hput
  have hparked := h.parked.park hcurrent.2 hruns.2 reason
  have hwaiting : (s.park reason).waiting = (reason, s.currentTCB) ::ₘ s.waiting := by
    rw [hpark]
    exact hcontent
  obtain ⟨hactive, hremoved⟩ := h.active.remove s.currentTCB
  have hactive_eq : (s.park reason).activeTasksHashTable =
      (s.activeTasksHashTable.remove s.currentTCB).1 := rfl
  have hscheduled : (s.park reason).scheduled = s.scheduled := rfl
  refine
    { parked := hparked
      known := h.known
      scheduled := fun r t hrt => ?_
      waits := fun t ht hwait => ?_
      active := hactive_eq ▸ hactive
      inactive := fun r t hrt v => ?_
      room := ?_
      room' := ?_
      mirror := ⟨Function.update m s.currentTCB (some reason), ?_, fun t r => ?_⟩ }
  · rw [hscheduled]
    rw [hwaiting, Multiset.mem_cons, Prod.mk.injEq] at hrt
    rcases hrt with ⟨rfl, rfl⟩ | hrt
    · exact ⟨hruns.1, hreason⟩
    · exact h.scheduled r t hrt
  · rw [hwaiting]
    by_cases htc : t = s.currentTCB
    · exact ⟨reason, Multiset.mem_cons.mpr (.inl (by rw [htc]))⟩
    · rw [park_tcb, if_neg htc] at hwait
      obtain ⟨r, hrt⟩ := h.waits t ht hwait
      exact ⟨r, Multiset.mem_cons_of_mem hrt⟩
  · rw [hactive_eq, hremoved]
    rintro ⟨hmem, hne⟩
    rw [hwaiting, Multiset.mem_cons, Prod.mk.injEq] at hrt
    rcases hrt with ⟨-, htc⟩ | hrt
    · exact hne htc
    · exact h.inactive r t hrt v hmem
  · rw [hpark]
    exact hmax ▸ h.room
  · rw [hpark, hput']
    exact hmax' ▸ h.room'
  · rw [hpark, hput']
    exact hmaps'
  · rw [hwaiting, Multiset.mem_cons, Prod.mk.injEq, Function.update_apply]
    by_cases htc : t = s.currentTCB
    · subst htc
      rw [if_pos rfl, Option.some.injEq]
      exact ⟨fun heq => .inl ⟨heq.symm, rfl⟩, fun hrt =>
        (hrt.resolve_right fun hmem => h.not_waiting hruns r hmem).1.symm⟩
    · rw [if_neg htc, hm]
      exact ⟨.inr, fun hrt => hrt.resolve_left fun heq => htc heq.2⟩

/-- Parking a task in a bucket with a waiter of the reason leaves it out of the
mirror. -/
theorem park_breaks (h : Mirrors tasks s) (hruns : s.Runs s.currentTCB)
    (hclash : ∃ t, (reason, t) ∈ s.waiting ∧ s.waitingTasksHashTableTcbAsKey.bucketNumber t =
      s.waitingTasksHashTableTcbAsKey.bucketNumber s.currentTCB) :
    (reason, s.currentTCB) ∈ (s.park reason).waiting ∧
      ((s.park reason).waitingTasksHashTableTcbAsKey.get s.currentTCB).1.validValueFlag = 0 := by
  obtain ⟨table, hput, -, hcontent, -⟩ := h.put_reason hruns reason
  obtain ⟨m, hmaps, hm⟩ := h.mirror
  obtain ⟨t, hmem, hbucket⟩ := hclash
  have hdup := (duplicate_iff hmaps hm).mpr ⟨t, hbucket, hmem⟩
  have hnone := h.mirror_none hm hruns
  rw [park_eq hput, put_of_duplicate hmaps.wf hdup]
  constructor
  · show (reason, s.currentTCB) ∈ table.content
    rw [hcontent]
    exact Multiset.mem_cons_self _ _
  · show (s.waitingTasksHashTableTcbAsKey.get s.currentTCB).1.validValueFlag = 0
    rw [hmaps.get, hnone]
    rfl

/-! ### Notifying -/

/-- One round of the loop of `notifyCallback`. -/
theorem wake (h : Mirrors tasks s) (htask : (s.takeWaiting reason).2 = task)
    (hmem : (reason, task) ∈ s.waiting) :
    Mirrors tasks ((s.takeWaiting reason).1.unpark task) := by
  obtain ⟨hparked, hcons⟩ := h.parked.wake hmem htask
  obtain ⟨reasons, task', htake, hwf, hcontent, hmax⟩ := takeWaiting_of_mem h.parked.wf ⟨task, hmem⟩
  obtain rfl : task' = task := by
    rw [htake] at htask
    exact htask
  obtain ⟨m, hmaps, hm⟩ := h.mirror
  obtain ⟨mirror, hremove, hmaps', -, hmax', -⟩ := hmaps.remove_some ((hm task' reason).mpr hmem)
  have hscheduled := (h.scheduled reason task' hmem).1
  obtain ⟨active, hput, hkeyed, hactive⟩ := h.active.put_of_not_mem (h.known task' hscheduled).1
    (h.inactive reason task' hmem) task'
  rw [htake, hremove] at hparked hcons ⊢
  obtain ⟨hactive_eq, htcb⟩ := unpark_of_put (s := { s with
    waitingTasksHashTableReasonAsKey := reasons
    waitingTasksHashTableTcbAsKey := mirror }) hput
  -- a task waits once, so the one woken waits for nothing any more
  have hrest : ∀ r t, (r, t) ∈ (Sched.unpark { s with
      waitingTasksHashTableReasonAsKey := reasons
      waitingTasksHashTableTcbAsKey := mirror } task').waiting ↔
        t ≠ task' ∧ (r, t) ∈ s.waiting := by
    intro r t
    have honce := h.parked.once
    rw [← hcons, Multiset.map_cons, Multiset.nodup_cons] at honce
    rw [← hcons, Multiset.mem_cons, Prod.mk.injEq]
    constructor
    · intro hrt
      exact ⟨fun heq => honce.1 (Multiset.mem_map.mpr ⟨(r, t), hrt, heq⟩), .inr hrt⟩
    · rintro ⟨hne, hrt⟩
      exact hrt.resolve_left fun heq => hne heq.2
  have hrest_eq := unpark_rest { s with
    waitingTasksHashTableReasonAsKey := reasons
    waitingTasksHashTableTcbAsKey := mirror } task'
  refine
    { parked := hparked
      known := ?_
      scheduled := fun r t hrt => ?_
      waits := fun t ht hwait => ?_
      active := hactive_eq ▸ hkeyed
      inactive := fun r t hrt v => ?_
      room := ?_
      room' := ?_
      mirror := ⟨Function.update m task' none, ?_, fun t r => ?_⟩ }
  · rw [hrest_eq]
    exact h.known
  · rw [hrest_eq]
    exact h.scheduled r t ((hrest r t).mp hrt).2
  · rw [hrest_eq] at ht
    rw [htcb] at hwait
    have hne : t ≠ task' := by
      rintro rfl
      rw [Function.update_self] at hwait
      exact absurd hwait Bool.false_ne_true
    rw [Function.update_of_ne hne] at hwait
    obtain ⟨r, hrt⟩ := h.waits t ht hwait
    exact ⟨r, (hrest r t).mpr ⟨hne, hrt⟩⟩
  · obtain ⟨hne, hrt⟩ := (hrest r t).mp hrt
    rw [hactive_eq, hactive, Multiset.mem_cons, Prod.mk.injEq]
    rintro (⟨heq, -⟩ | hv)
    · exact hne heq
    · exact h.inactive r t hrt v hv
  · rw [hrest_eq]
    exact hmax ▸ h.room
  · rw [hrest_eq]
    exact hmax' ▸ h.room'
  · rw [hrest_eq]
    exact hmaps'
  · rw [hrest, Function.update_apply]
    by_cases heq : t = task'
    · simp [heq]
    · rw [if_neg heq, hm]
      exact ⟨fun hrt => ⟨heq, hrt⟩, And.right⟩

/-- The round that finds no task. -/
theorem takeNone (h : Mirrors tasks s) (hnone : ∀ task, (reason, task) ∉ s.waiting) :
    Mirrors tasks (s.takeWaiting reason).1 := by
  obtain ⟨m, hmaps, hm⟩ := h.mirror
  have hnull : m NULL = none := by
    cases hmt : m NULL with
    | none => rfl
    | some r => exact absurd rfl (h.parked.not_null r NULL ((hm NULL r).mp hmt))
  rw [takeWaiting_of_not_mem h.parked.wf hnone, hmaps.remove_none hnull]
  exact
    { h with
      parked := { h.parked with wf := h.parked.wf.setFlag 0 }
      mirror := ⟨m, hmaps.setFlag 0, hm⟩ }

theorem wakeAll (h : Mirrors tasks s) (reason : Nat) : Mirrors tasks (s.wakeAll reason) :=
  (wakeAll_rule (fun _ h => ⟨h.parked.wf, fun task => h.parked.not_null reason task⟩)
    (fun _ _ h htask hmem => h.wake htask hmem) (fun _ h hnone => h.takeNone hnone) h).1

/-! ### Steps -/

/-- **One step** that fits keeps the mirror. -/
theorem step (h : Mirrors tasks s) {e : WaitEvent} (hfits : s.MirrorFits e)
    (hstep : s.waitStep tasks e = some s') : Mirrors tasks s' := by
  cases e with
  | addTask tcb memory stack taskPriority =>
    simp only [waitStep, Option.ite_none_right_eq_some, Option.some.injEq] at hstep
    obtain ⟨⟨htask, hnew⟩, rfl⟩ := hstep
    exact h.addTask htask hnew memory stack taskPriority
  | memory acquired mutexes =>
    cases hstep
    exact h.memory acquired mutexes
  | wait task fuel reason checkCode isReasonMutex =>
    simp only [waitStep, Option.ite_none_right_eq_some] at hstep
    obtain ⟨⟨hruns, hreason⟩, hwait⟩ := hstep
    rcases waitCallback_cases hwait with ⟨-, rfl⟩ | ⟨hcode, hinherits⟩
    · exact h.switchTo task
    · refine ((h.switchTo task).park hruns hreason ?_).inherits hinherits
      intro t hmem
      exact hfits hcode (reason, t) hmem rfl
  | notify task fuel reason =>
    simp only [waitStep, Option.ite_none_right_eq_some] at hstep
    exact ((h.switchTo task).nextCheckCode.wakeAll reason).inherits
      (notifyCallback_inherits hstep.2)

/-- A step that does not fit breaks the mirror. -/
theorem step_breaks (h : Mirrors tasks s) {e : WaitEvent} (hfits : ¬ s.MirrorFits e)
    (hstep : s.waitStep tasks e = some s') : ¬ Mirrored s' := by
  cases e with
  | addTask => exact absurd trivial hfits
  | memory => exact absurd trivial hfits
  | notify => exact absurd trivial hfits
  | wait task fuel reason checkCode isReasonMutex =>
    simp only [waitStep, Option.ite_none_right_eq_some] at hstep
    obtain ⟨⟨hruns, hreason⟩, hwait⟩ := hstep
    simp only [MirrorFits] at hfits
    push Not at hfits
    obtain ⟨hcode, ⟨r, t⟩, hmem, rfl, hbucket⟩ := hfits
    rcases waitCallback_cases hwait with ⟨hne, -⟩ | ⟨-, hinherits⟩
    · exact absurd hcode hne
    · obtain ⟨hwaiting, hflag⟩ :=
        (h.switchTo task).park_breaks (s := s.switchTo task) hruns ⟨t, hmem, hbucket⟩
      intro hmirrored
      rw [← hinherits.waiting] at hwaiting
      have hvalid := ((hmirrored.mirror _ _).mp hwaiting).1
      rw [hinherits.rest] at hvalid
      exact absurd (hflag.symm.trans hvalid) Nat.zero_ne_one

end Mirrors

/-! ## Runs -/

variable {tasks : Finset Nat} {s : Sched}

/-- The mirror is right before the run and after every step of it. -/
def MirroredThroughout (tasks : Finset Nat) : Sched → List WaitEvent → Prop
  | s, [] => Mirrored s
  | s, e :: es =>
    Mirrored s ∧ ∀ s', s.waitStep tasks e = some s' → MirroredThroughout tasks s' es

/-- Every wait of the run finds no waiter of its reason in the bucket. -/
def MirrorFitsThroughout (tasks : Finset Nat) : Sched → List WaitEvent → Prop
  | _, [] => True
  | s, e :: es =>
    s.MirrorFits e ∧ ∀ s', s.waitStep tasks e = some s' → MirrorFitsThroughout tasks s' es

theorem MirroredThroughout.head {es : List WaitEvent} (h : MirroredThroughout tasks s es) :
    Mirrored s := by
  cases es with
  | nil => exact h
  | cons e es => exact h.1

/-- The run form of `Mirrors.step` and `Mirrors.step_breaks`. -/
theorem Mirrors.throughout_iff (h : Mirrors tasks s) {es : List WaitEvent}
    (hrun : ((waitMachine tasks).run s es).isSome) :
    MirroredThroughout tasks s es ↔ MirrorFitsThroughout tasks s es := by
  induction es generalizing s with
  | nil => exact iff_of_true h.mirrored trivial
  | cons e es ih =>
    obtain ⟨s₂, hs₂⟩ := Option.isSome_iff_exists.mp hrun
    obtain ⟨s₁, hs₁, hrest⟩ := Option.bind_eq_some_iff.mp hs₂
    have hstep : s.waitStep tasks e = some s₁ := hs₁
    have hrest' : ((waitMachine tasks).run s₁ es).isSome := by
      rw [hrest]
      rfl
    constructor
    · rintro ⟨-, hafter⟩
      have hfits : s.MirrorFits e := by
        by_contra hnot
        exact h.step_breaks hnot hstep (hafter s₁ hstep).head
      refine ⟨hfits, ?_⟩
      intro s' hs'
      obtain rfl : s₁ = s' := Option.some.inj (hstep.symm.trans hs')
      exact (ih (h.step hfits hstep) hrest').mp (hafter s₁ hstep)
    · rintro ⟨hfits, hafter⟩
      refine ⟨h.mirrored, ?_⟩
      intro s' hs'
      obtain rfl : s₁ = s' := Option.some.inj (hstep.symm.trans hs')
      exact (ih (h.step hfits hstep) hrest').mpr (hafter s₁ hstep)

theorem Initialised.mirrors (hs : Initialised s) (htasks : tasks.card ≤ WAIT_HASHTABLE_CAPACITY) :
    Mirrors tasks s := by
  obtain ⟨N, tcb, mutexes, currentTCB, idleTCB, ticks, values, flags, nodes, rfl⟩ := hs
  have hempty : (initializeScheduler N tcb mutexes currentTCB idleTCB ticks values flags
      nodes).waiting = 0 := by
    simp [waiting, initializeScheduler]
  have hnone : ∀ p, p ∉ (initializeScheduler N tcb mutexes currentTCB idleTCB ticks values flags
      nodes).waiting := fun p => hempty ▸ Multiset.notMem_zero p
  exact
    { parked := .of_none (newHashtable_wf_of_buckets (by decide) _ _) hempty
      known := fun t ht => absurd ht List.not_mem_nil
      scheduled := fun r t hrt => absurd hrt (hnone _)
      waits := fun t ht => absurd ht List.not_mem_nil
      active := newHashtable_keyed htasks (by decide) (by decide) _ _
      inactive := fun r t hrt => absurd hrt (hnone _)
      room := htasks
      room' := htasks
      mirror := ⟨fun _ => none, newHashtable_maps (by decide) _ _, fun t r =>
        ⟨fun heq => absurd heq (by simp), fun hrt => absurd hrt (hnone _)⟩⟩ }

/-- **The mirror over whole runs**: with at most as many tasks as the tables have
room for, the two tables of waiting tasks mirror each other in every state of a
run iff every wait of the run finds no task that waits for the same reason in its
bucket. -/
theorem mirroredThroughout_iff (htasks : tasks.card ≤ WAIT_HASHTABLE_CAPACITY)
    (hs : Initialised s) {es : List WaitEvent} (hrun : ((waitMachine tasks).run s es).isSome) :
    MirroredThroughout tasks s es ↔ MirrorFitsThroughout tasks s es :=
  (hs.mirrors htasks).throughout_iff hrun

theorem sampleSched_initialised (currentTCB : Nat) : Initialised (sampleSched currentTCB) :=
  ⟨_, _, _, _, _, _, _, _, _, rfl⟩

/-- Two tasks whose TCBs are 128 bytes apart, in one bucket of the mirror, that
wait for `reason` and `reason'`. -/
def twoWaiters (reason reason' : Nat) : List WaitEvent :=
  [.addTask 536875008 ⟨0, .zero, 0, 0, 0, 0, 0, 0⟩ 4096 1,
    .addTask 536875136 ⟨0, .zero, 0, 0, 0, 0, 0, 0⟩ 8192 1,
    .wait 536875008 1 reason 0 0, .wait 536875136 1 reason' 0 0]

theorem mirroredThroughout_iff_twoWaiters :
    MirroredThroughout {536875008, 536875136} (sampleSched 2) (twoWaiters 536879104 536879120) ↔
      MirrorFitsThroughout {536875008, 536875136} (sampleSched 2)
        (twoWaiters 536879104 536879120) :=
  mirroredThroughout_iff (by decide) (sampleSched_initialised 2) (by decide +kernel)

/-- Two tasks of one bucket that wait for the same reason: the second one is not
in the mirror. -/
theorem mirror_misses_task :
    ¬ ∀ (tasks : Finset Nat) (s : Sched), tasks.card ≤ WAIT_HASHTABLE_CAPACITY →
        (waitMachine tasks).Reach s → Mirrored s := by
  intro h
  obtain ⟨s, hrun, hmem, hflag⟩ := (waitMachine {536875008, 536875136}).exists_run
    (s := sampleSched 2) (e := twoWaiters 536879104 536879104)
    (P := fun s => (536879104, 536875136) ∈ s.waiting ∧
      (s.waitingTasksHashTableTcbAsKey.get 536875136).1.validValueFlag ≠ 1) (by decide +kernel)
  have hreach : (waitMachine {536875008, 536875136}).Reach s :=
    Lib.Machine.Reach.run (.init (sampleSched_initialised 2)) hrun
  exact hflag (((h _ s (by decide) hreach).mirror 536875136 536879104).mp hmem).1

end Sched

end DocetOS
