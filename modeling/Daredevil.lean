import Daredevil.Lib.EvenSplit
import Daredevil.Lib.Word32
import Daredevil.Lib.Lts
import Daredevil.Lib.Returns
import Daredevil.Block.Layout
import Daredevil.Block.Vnq
import Daredevil.Block.TagIter
import Daredevil.Block.TagSet
import Daredevil.Nvme.Dev
import Daredevil.Nvme.Setup
import Daredevil.Nvme.Poll
import Daredevil.Nvme.Reset
import Daredevil.Lib.RingBuffer
import Daredevil.Nvme.Overflow
import Daredevil.Lib.BinaryHeap
import Daredevil.Lib.RefCount
import Daredevil.Sched.Regulator
import Daredevil.Sched.Init
import Daredevil.Sched.UsageMap
import Daredevil.Sched.Route
import Daredevil.Sched.Profile
import Daredevil.Sched.Separation
import Daredevil.Sched.Accounting
import Daredevil.Sched.Consistency
import Daredevil.Nvme.Vectors
import Daredevil.Sched.PrioIndex
import Daredevil.Block.IoContext
import Daredevil.Sched.IoprioChange
import Daredevil.Sched.MapRace
import Daredevil.Block.Dispatch
import Daredevil.Block.Plug
import Daredevil.Block.Alloc
import Daredevil.Block.Submit
import Daredevil.Sched.Recommend
import Daredevil.Sched.RoundRobin
import Daredevil.Block.CachedRequest
import Daredevil.Sched.Outlier
import Daredevil.Lib.PhaseRing
import Daredevil.Nvme.Completion
import Daredevil.Nvme.SingleQueue
import Daredevil.Nvme.InFlight
import Daredevil.Lib.ObjHeap
import Daredevil.Nvme.TagSetOwner
import Daredevil.Nvme.Doorbell
import Daredevil.Block.Flush
import Daredevil.Lib.HeapOrder
import Daredevil.Sched.HeapOrder
import Daredevil.Nvme.CqFirst
import Daredevil.Nvme.IrqVectors
import Daredevil.Sched.Promotion
import Daredevil.Block.DefaultHctx
import Daredevil.Sched.FailedProfile
import Daredevil.Sched.GroupRange
import Daredevil.Sched.Dominance
import Daredevil.Nvme.QueueMaps
import Daredevil.Nvme.Dbbuf
import Daredevil.Nvme.QueueArray
import Daredevil.Lib.Owned
import Daredevil.Sched.RegMem
import Daredevil.Block.NextCpu
import Daredevil.Nvme.GroupHeaps
import Daredevil.Lib.LinkedList
import Daredevil.Nvme.QueueRqs
import Daredevil.Block.EndBatch
import Daredevil.Block.FlushMapping
import Daredevil.Sched.UsageInv
import Daredevil.Nvme.EnqueuedCmds
import Daredevil.Lib.ChainedPages
import Daredevil.Nvme.IodList
import Daredevil.Nvme.MapData
import Daredevil.Nvme.ShadowDoorbell
import Daredevil.Block.RequestRef
import Daredevil.Block.Timeout
import Daredevil.Block.RemoteCompletion
import Daredevil.Block.UpdateRequest
import Daredevil.Block.Freeze
import Daredevil.Block.Quiesce
import Daredevil.Block.Restart
import Daredevil.Block.RequestPool
