import Nowhere.Lib.Assoc
import Nowhere.Lib.Tally
import Nowhere.Lib.Bytes
import Nowhere.Lib.Holes
import Nowhere.Lib.Queue
import Nowhere.Lib.Cycle
import Nowhere.Lib.Dialogue
import Nowhere.Lib.Tasks
import Nowhere.Lib.Alone
import Nowhere.Lib.Following
import Nowhere.Lib.Machine
import Nowhere.Lib.Slots
import Nowhere.Lib.Relay
import Nowhere.Lib.ByteStream
import Nowhere.Lib.Framing
import Nowhere.Lib.Text
import Nowhere.Lib.IpText
import Nowhere.Protocol.Flow
import Nowhere.Protocol.Datagram
import Nowhere.Protocol.Reassembly
import Nowhere.Protocol.ReassemblySteps
import Nowhere.Protocol.ReassemblyLedger
import Nowhere.Protocol.ReassemblyHistory
import Nowhere.Protocol.ReassemblyExpiry
import Nowhere.Protocol.RoundTrip
import Nowhere.Protocol.Routing
import Nowhere.Protocol.DatagramCodec
import Nowhere.Protocol.FragmentPlan
import Nowhere.Protocol.Buffer
import Nowhere.Protocol.Header
import Nowhere.Protocol.Auth
import Nowhere.Protocol.Request
import Nowhere.Protocol.TargetCodec
import Nowhere.Protocol.TargetText
import Nowhere.Protocol.Uot
import Nowhere.Protocol.SetupResult
import Nowhere.Common.DatagramQueue
import Nowhere.Common.DatagramSend
import Nowhere.Common.SocksAddress
import Nowhere.Common.SocksNegotiation
import Nowhere.Common.SocksConfig
import Nowhere.Common.SocksRequest
import Nowhere.Transport.RateBucket
import Nowhere.Transport.Rate
import Nowhere.Portal.Admission
import Nowhere.Portal.State
import Nowhere.Portal.Registry
import Nowhere.Portal.Frames
import Nowhere.Portal.Outcomes
import Nowhere.Portal.Steps
import Nowhere.Portal.Changes
import Nowhere.Portal.Calls
import Nowhere.Portal.Ledger
import Nowhere.Portal.Guards
import Nowhere.Portal.LinkStats
import Nowhere.Portal.Locks
import Nowhere.Portal.SelfLock
import Nowhere.Portal.Atomic
import Nowhere.Portal.Kinds
import Nowhere.Portal.LockOrder
import Nowhere.Portal.Leases
import Nowhere.Portal.Pairs
import Nowhere.Portal.Generations
import Nowhere.Portal.Downlinks
import Nowhere.Portal.Tombstones
import Nowhere.Portal.KindSteps
import Nowhere.Portal.KindInstall
import Nowhere.Portal.KindAgreement
import Nowhere.Portal.TombstoneDelivery
import Nowhere.Portal.Bounds
import Nowhere.Portal.Closing
import Nowhere.Portal.Permits
import Nowhere.Portal.FlowLimit
import Nowhere.Portal.FlowTasks
import Nowhere.Portal.FlowTaskInvariant
import Nowhere.Portal.FlowTaskShutdown
import Nowhere.Portal.Session
import Nowhere.Portal.SessionSteps
import Nowhere.Portal.SessionRoutes
import Nowhere.Portal.StaleRemovals
import Nowhere.Portal.ReadyBarrier
import Nowhere.Vector.UotRead
import Nowhere.Vector.FlowId
import Nowhere.Vector.QuicSession
import Nowhere.Vector.QuicRoutes
import Nowhere.Vector.UdpFlow
import Nowhere.Vector.OpenFlow
import Nowhere.Vector.SocksAssociation
import Nowhere.Vector.SocksAssociationRuns
import Nowhere.Vector.SocksAssociationDelivery
import Nowhere.DatagramRoutes
import Nowhere.OpeningEnvelope
import Nowhere.Vector.Carriers
import Nowhere.Vector.CarriersSteps
import Nowhere.Vector.CarriersWires
import Nowhere.Vector.CarriersPool
import Nowhere.Vector.CarriersSessions
import Nowhere.Vector.CarriersRuns
import Nowhere.TcpExchange
import Nowhere.TcpExchangeRuns
import Nowhere.TcpExchangeDelivery
