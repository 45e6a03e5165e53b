import Autolock.Concurrency.Barrier
import Autolock.Concurrency.Cohort
import Autolock.Concurrency.Continuation
import Autolock.Concurrency.CountSince
import Autolock.Concurrency.Drain
import Autolock.Concurrency.Exclusive
import Autolock.Concurrency.Futex
import Autolock.Concurrency.Heap
import Autolock.Concurrency.LockClient
import Autolock.Concurrency.LockSpec
import Autolock.Concurrency.Lockstep
import Autolock.Concurrency.Population
import Autolock.Concurrency.Since
import Autolock.Concurrency.StoreBuffer
import Autolock.Concurrency.Threads
import Autolock.Concurrency.TicketLedger
import Autolock.Concurrency.TransitionSystem
import Autolock.Concurrency.WrappingCounter
import Autolock.Data.Adjacent
import Autolock.Data.BasicRegex
import Autolock.Data.ByteMemory
import Autolock.Data.Interpolation
import Autolock.Data.LinkedList
import Autolock.Data.LowestBit
import Autolock.Data.RecordStream
import Autolock.Data.Smear
import Autolock.Interpose.PthreadSpin
import Autolock.Interpose.PthreadSpinSafety
import Autolock.Interpose.ThreadStats
import Autolock.Interpose.ThreadStatsAccount
import Autolock.Interpose.ThreadStatsReport
import Autolock.Kernel.AddressSpace
import Autolock.Kernel.CachedTranslation
import Autolock.Kernel.ContextCreate
import Autolock.Kernel.ContextCreateSafety
import Autolock.Kernel.ContextLifetime
import Autolock.Kernel.ContextLifetimeSafety
import Autolock.Kernel.Fair
import Autolock.Kernel.FreeLock
import Autolock.Kernel.PickNextEntity
import Autolock.Kernel.PinBalance
import Autolock.Kernel.WatchedPage
import Autolock.Kernel.WatchedPageSafety
import Autolock.Lib.Percentiles
import Autolock.Lib.StatsCsvAligned
import Autolock.Locks.LockOps
import Autolock.Locks.LockOpsData
import Autolock.Locks.StatusCodesSafety
import Autolock.Runner.AllowableCsetExact
import Autolock.Runner.BenchRunnerEnds
import Autolock.Runner.CpuList
import Autolock.Runner.Pinning
import Autolock.Stats.Delivery
import Autolock.Stats.DeliverySafety
import Autolock.Stats.ParseStats
import Autolock.Stats.PrintOrder
import Autolock.Stats.Recording
import Autolock.Stats.RegionBounds
import Autolock.Stats.RoundTrip
import Autolock.Stats.SliceBytes
import Autolock.Stats.SliceRecorder
import Autolock.Stats.Writeout
import Autolock.UserLocks.Aepfl
import Autolock.UserLocks.AepflDistance
import Autolock.UserLocks.AepflExclusion
import Autolock.UserLocks.AepflRunnable
import Autolock.UserLocks.AepflSafety
import Autolock.UserLocks.AepflStall
import Autolock.UserLocks.Allocator
import Autolock.UserLocks.Arming
import Autolock.UserLocks.AutolockPage
import Autolock.UserLocks.Clh
import Autolock.UserLocks.ClhDrain
import Autolock.UserLocks.ClhQueue
import Autolock.UserLocks.ClhRunnable
import Autolock.UserLocks.ClhSafety
import Autolock.UserLocks.ClhSteps
import Autolock.UserLocks.Cptltkt
import Autolock.UserLocks.CptltktBatch
import Autolock.UserLocks.CptltktCohort
import Autolock.UserLocks.CptltktRunnable
import Autolock.UserLocks.CptltktSafety
import Autolock.UserLocks.CptltktSolo
import Autolock.UserLocks.CptltktStall
import Autolock.UserLocks.CptltktSteps
import Autolock.UserLocks.CptltktUnderflow
import Autolock.UserLocks.CustomAutolock
import Autolock.UserLocks.KernelState
import Autolock.UserLocks.KernelStateSafety
import Autolock.UserLocks.LockBase
import Autolock.UserLocks.LockBaseDrain
import Autolock.UserLocks.LockBaseSafety
import Autolock.UserLocks.LockBaseWakeup
import Autolock.UserLocks.LockPrograms
import Autolock.UserLocks.LockWait
import Autolock.UserLocks.LockWaitRounds
import Autolock.UserLocks.Mcs
import Autolock.UserLocks.McsPage
import Autolock.UserLocks.McsQueue
import Autolock.UserLocks.McsSafety
import Autolock.UserLocks.RseqAutolock
import Autolock.UserLocks.RseqAutolockSafety
import Autolock.UserLocks.SimpleTicket
import Autolock.UserLocks.SimpleTicketRunnable
import Autolock.UserLocks.SimpleTicketSafety
import Autolock.UserLocks.SimpleTicketStall
import Autolock.Util.ArgBounds
import Autolock.Util.ArgGrammarExact
import Autolock.Util.ArgInteger
import Autolock.Util.FileUtil
import Autolock.Util.FuncDecl
import Autolock.Util.InlineMath
import Autolock.Util.WildcardMatcher
import Autolock.Util.WildcardRegex
