import DocetOS.Words
import DocetOS.Lib.Machine
import DocetOS.Lib.EventCount
import DocetOS.Lib.Chain
import DocetOS.Lib.ChainFamily
import DocetOS.Lib.BinaryHeap
import DocetOS.Lib.Ring
import DocetOS.Lib.Census
import DocetOS.Lib.Simulation
import DocetOS.Lib.PriorityQueue
import DocetOS.Lib.Fifo
import DocetOS.Lib.Multimap
import DocetOS.Lib.RefCount
import DocetOS.Lib.PriorityInheritance
import DocetOS.DataStructures.Hashtable
import DocetOS.DataStructures.HashtableSpec
import DocetOS.DataStructures.HashtableZeroed
import DocetOS.DataStructures.HashtableMultimap
import DocetOS.DataStructures.HashtableNodes
import DocetOS.DataStructures.HashtableMap
import DocetOS.DataStructures.Heap
import DocetOS.DataStructures.HeapOrder
import DocetOS.DataStructures.HashtableKeys
import DocetOS.DataStructures.HeapIndex
import DocetOS.DataStructures.HeapLookup
import DocetOS.DataStructures.HeapQueue
import DocetOS.DataStructures.HeapRemoval
import DocetOS.DataStructures.Mutex
import DocetOS.OS.Memcluster
import DocetOS.OS.MemclusterBlocks
import DocetOS.OS.MemclusterConservation
import DocetOS.OS.MemclusterPrivacy
import DocetOS.OS.MemclusterBestFit
import DocetOS.OS.MemclusterCarving
import DocetOS.OS.MemclusterSpacing
import DocetOS.OS.MemclusterAlignment
import DocetOS.OS.MemclusterLocks
import DocetOS.OS.MemclusterFlag
import DocetOS.OS.Scheduler
import DocetOS.OS.Waiting
import DocetOS.OS.WaitingMirror
import DocetOS.OS.SchedulerRuns
import DocetOS.OS.SchedulerSteps
import DocetOS.OS.Sleepers
import DocetOS.DataStructures.MutexRuns
import DocetOS.DataStructures.MutexExclusion
import DocetOS.DataStructures.MutexMoves
import DocetOS.DataStructures.MutexWakeup
import DocetOS.DataStructures.MutexInheritance
import DocetOS.OS.AcquiredLists
import DocetOS.DataStructures.MutexLists
import DocetOS.OS.InheritedPriority
import DocetOS.DataStructures.MutexPriorities
import DocetOS.DataStructures.Semaphore
import DocetOS.DataStructures.SemaphoreRuns
import DocetOS.DataStructures.SemaphoreTokens
import DocetOS.DataStructures.Queue
import DocetOS.DataStructures.QueueFifo
import DocetOS.DataStructures.Channel
import DocetOS.DataStructures.ChannelRuns
import DocetOS.DataStructures.ChannelOrder
import DocetOS.OS.ChannelManager
import DocetOS.OS.ChannelManagerRuns
import DocetOS.OS.ChannelExhaustion
import DocetOS.OS.SleepTime
import DocetOS.OS.Integrity
import DocetOS.OS.RolloverCalls
import DocetOS.OS.RolloverPass
import DocetOS.OS.AddTask
import DocetOS.OS.LifecycleSteps
import DocetOS.OS.HeapRoom
import DocetOS.OS.Walk
import DocetOS.OS.TaskSelection
import DocetOS.OS.Bookkeeping
import DocetOS.OS.HeapKeys
import DocetOS.OS.InheritedMinimum
import DocetOS.OS.NotifyWakes
import DocetOS.OS.ScheduledOnce
import DocetOS.OS.ExitedTasks
import DocetOS.OS.FreedLives
import DocetOS.OS.TaskMemory
import DocetOS.OS.LostTasks
import DocetOS.Lib.WordMemory
import DocetOS.Lib.Refinement
import DocetOS.OS.Processor
import DocetOS.OS.SchedulerFrame
import DocetOS.OS.SystemCalls
import DocetOS.OS.ProcessorRuns
import DocetOS.OS.Virtual
import DocetOS.OS.TimeSharing
import DocetOS.OS.ContextSwitch
import DocetOS.OS.HandlerBooks
import DocetOS.OS.TaskDiscipline
import DocetOS.OS.ExclusiveAccess
import DocetOS.Lib.WaitFor
import DocetOS.DataStructures.MutexOrder
import DocetOS.Lib.Chance
import DocetOS.OS.TaskTurns
import DocetOS.Lib.BestFit
import DocetOS.OS.MemclusterRequests
import DocetOS.OS.Boot
