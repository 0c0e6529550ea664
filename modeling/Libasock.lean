import Libasock.GuardedRuns
import Libasock.ByteBlocks
import Libasock.RingWindows
import Libasock.NumberReuse
import Libasock.ReturnCodes
import Libasock.TsqueueModel
import Libasock.VectorModel
import Libasock.VectorRefinement
import Libasock.VectorGrowth
import Libasock.TsqueueContent
import Libasock.TsqueueRefinement
import Libasock.RingCopies
import Libasock.CapacityLaw
import Libasock.CreationSizes
import Libasock.HeadChunks
import Libasock.ConnectionObjects
import Libasock.LockedObjects
import Libasock.LockedRuns
import Libasock.QueueStatements
import Libasock.FailedEnqueues
import Libasock.ByteStream
import Libasock.WorkerWorld
import Libasock.ConnectionVectors
import Libasock.ReferenceCounts
import Libasock.DescriptorOwnership
import Libasock.ServerWorker
import Libasock.AcceptIterations
import Libasock.ServerReferences
import Libasock.AcceptLoops
import Libasock.SocketContents
import Libasock.RegisteredConnections
import Libasock.ServerDescriptors
import Libasock.ListeningSockets
import Libasock.ServerDelivery
import Libasock.ServiceWorker
import Libasock.ServiceReferences
import Libasock.ServiceStates
import Libasock.EventHandlers
import Libasock.ServiceDescriptors
import Libasock.KeyedAttempts
import Libasock.ConnectRequests
import Libasock.ServiceDelivery
import Libasock.InterruptedCloses
import Libasock.ConnectionCloses
import Libasock.DirectiveSlot
import Libasock.SerialDirectives
import Libasock.DirectiveAnswers
import Libasock.WorkerLifecycle
import Libasock.ObjectRelease
import Libasock.AcceptOrder
import Libasock.ServiceCounts
import Libasock.VisibleStops
import Libasock.ServiceStops
import Libasock.ServerStops
import Libasock.ConnectDescriptors
import Libasock.ServiceManager
import Libasock.ServiceTable
import Libasock.LibraryLifetimes
import Libasock.NamespaceServices
import Libasock.NamespaceWorkers
import Libasock.SendPass
import Libasock.DownwardLoops
import Libasock.DownwardPasses
import Libasock.UndisturbedPasses
import Libasock.PendingOffers
import Libasock.LastWrites
import Libasock.LockPrograms
import Libasock.MutexOrder
import Libasock.EdgeTriggers
import Libasock.UnreadSockets
import Libasock.ServerEdges
import Libasock.ServiceFronts
import Libasock.ServiceEdges
import Libasock.MeasuredRuns
import Libasock.ByteDelivery
import Libasock.AtomicCalls
import Libasock.BlockLedger
import Libasock.ObjectMemory
import Libasock.HostResources
import Libasock.HostCreations
import Libasock.HostLedgers
import Libasock.InPlaceVisits
import Libasock.OutputStreams
import Libasock.QueueLinearizability
import Libasock.FreshNumbers
import Libasock.ReferenceStatements
import Libasock.ReferenceRuns
