import Odyssey.BroadcastLinks
import Odyssey.Lib.Arrays
import Odyssey.Lib.Cyclic
import Odyssey.Lib.Outcome
import Odyssey.Lib.Runs
import Odyssey.Lib.Exchange
import Odyssey.QuorumInvariant
import Odyssey.ReceiveRing
import Odyssey.SendFifo.Runs
import Odyssey.Signaling
import Odyssey.UnicastLinks
import Odyssey.Batches
import Odyssey.SendRuns
import Odyssey.Sending
import Odyssey.Acks
import Odyssey.Lib.Register
import Odyssey.Seqlock
import Odyssey.Mica
import Odyssey.MicaStore
import Odyssey.ClientRing
import Odyssey.ClientRingRuns
import Odyssey.Commits
import Odyssey.ReorderBuffer
import Odyssey.SendFifo.Replies
import Odyssey.UnicastCredits
import Odyssey.ClientSessions
import Odyssey.SendDepth
import Odyssey.Tickets
import Odyssey.ProducerConsumer
import Odyssey.ProducerConsumerRuns
import Odyssey.Lib.Paths
import Odyssey.Treiber
import Odyssey.TreiberRuns
import Odyssey.MsQueue
import Odyssey.MsQueueRuns
import Odyssey.MsQueueSetUp
import Odyssey.Lib.Counts
import Odyssey.Mirror
import Odyssey.MirrorRuns
import Odyssey.RecvPosts
import Odyssey.RingShape
import Odyssey.WeakAccess
import Odyssey.PollRounds
import Odyssey.Lib.EraseWalk
import Odyssey.Revival
import Odyssey.Timeouts
import Odyssey.Timestamps
import Odyssey.SessionIds
import Odyssey.MsQueueTags
import Odyssey.MsQueueValues
import Odyssey.MsQueueFirst
import Odyssey.MsQueueRounds
import Odyssey.MsQueueClients
import Odyssey.RecvCounts
import Odyssey.CreditNet
import Odyssey.CreditFlow
import Odyssey.CreditSteps
import Odyssey.CreditHandlers
import Odyssey.CreditBalance
import Odyssey.ValueLengths
import Odyssey.RelativeSlots
import Odyssey.WorkingSessions
import Odyssey.Multicast
import Odyssey.HarrisMichael
import Odyssey.HarrisMichaelPoints
import Odyssey.HarrisMichaelPasses
import Odyssey.HarrisMichaelReads
import Odyssey.HarrisMichaelWrites
import Odyssey.HarrisMichaelRuns
import Odyssey.HarrisMichaelSteps
import Odyssey.HarrisMichaelSetUp
import Odyssey.Lib.Progress
import Odyssey.Connections
import Odyssey.ConnectionMachines
import Odyssey.ConnectionSteps
import Odyssey.ConnectionRuns
import Odyssey.Lib.Simulation
import Odyssey.RingSessions
import Odyssey.RingSlots
import Odyssey.RingRefinement
import Odyssey.RingSafety
import Odyssey.RingRuns
import Odyssey.Lib.Decimal
import Odyssey.Trace
import Odyssey.TraceClient
import Odyssey.TraceRings
import Odyssey.TraceSetUp
import Odyssey.TraceRuns
import Odyssey.Circular
import Odyssey.CircularRuns
