import Libeam.Proofs.MigratePrepare
import Libeam.Proofs.MigrationRegistry
import Libeam.Proofs.Lifetime
import Libeam.Proofs.RemoteDelivery
import Libeam.Proofs.ExecuteFailure
import Libeam.Proofs.RootLimits
import Libeam.Proofs.Bookkeeping
import Libeam.Proofs.RemoteChildren
import Libeam.Proofs.SpawnFailure
import Libeam.Proofs.TerminateOnce
import Libeam.Proofs.Rejoining
import Libeam.Proofs.GossipNews
import Libeam.Proofs.GossipOrder
import Libeam.Proofs.RemoteLinkEnds
import Libeam.Proofs.LinkFiring
import Libeam.Proofs.StopCompletes
import Libeam.Proofs.BroadcastLedger
import Libeam.Proofs.BroadcastFlow
import Libeam.Proofs.BoundedRetention
import Libeam.Proofs.WorkConservation
import Libeam.Proofs.PartitionOrder
import Libeam.Proofs.BackPressure
import Libeam.Proofs.AccumulatedDemand
import Libeam.Proofs.CreditConservation
import Libeam.Proofs.CookieRotation
import Libeam.Proofs.JustifiedFailures
import Libeam.Proofs.AgentOrder
import Libeam.Proofs.RemoteSpawn
import Libeam.Proofs.NamedRefs
import Libeam.Proofs.WorkerAccounts
import Libeam.Proofs.BulkLoad
import Libeam.Proofs.OverflowReport
import Libeam.Proofs.SpentOnce
import Libeam.Proofs.GroupConvergence
import Libeam.Proofs.RequestSettlement
import Libeam.Proofs.OwnNames
import Libeam.Proofs.PeerTable
import Libeam.Proofs.RemoteLimits
import Libeam.Proofs.GreedyDispatch
import Libeam.Proofs.Z85Codec
import Libeam.Proofs.NonceWindow
import Libeam.Proofs.UnstashOrder
import Libeam.Proofs.DefaultPartitions
import Libeam.Proofs.PortTriples
import Libeam.Proofs.StashedCalls
import Libeam.Proofs.GroupExact
import Libeam.System.Timers
