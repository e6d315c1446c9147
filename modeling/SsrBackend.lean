import SsrBackend.Foundation.Aes
import SsrBackend.Foundation.Bytes
import SsrBackend.Foundation.Digest
import SsrBackend.Foundation.Effects
import SsrBackend.Foundation.Keystream
import SsrBackend.Foundation.Outcome
import SsrBackend.Foundation.Resumable
import SsrBackend.Foundation.Machine
import SsrBackend.Foundation.Arena
import SsrBackend.Foundation.Unwinding
import SsrBackend.Foundation.Interleaving
import SsrBackend.Foundation.Roster
import SsrBackend.Foundation.Budget
import SsrBackend.Foundation.BoundedQueue
import SsrBackend.Foundation.Tally
import SsrBackend.Foundation.Scanner
import SsrBackend.Foundation.Text
import SsrBackend.Ssr.Kdf
import SsrBackend.Ssr.Rc4
import SsrBackend.Ssr.Rc4Stream
import SsrBackend.Ssr.Cipher
import SsrBackend.Ssr.Protocol
import SsrBackend.Ssr.ProtocolTurn
import SsrBackend.Ssr.ProtocolReader
import SsrBackend.Ssr.ProtocolReceive
import SsrBackend.Ssr.ProtocolSend
import SsrBackend.Ssr.Session
import SsrBackend.Ssr.ClientCodec
import SsrBackend.Ssr.SessionDecoding
import SsrBackend.Ssr.UdpPacket
import SsrBackend.Ssr.KeyDerivation
import SsrBackend.Ssr.Address
import SsrBackend.Ssr.AddressLaws
import SsrBackend.Ssr.SessionRuns
import SsrBackend.Ssr.ClientReceive
import SsrBackend.Ssr.SessionSending
import SsrBackend.Ssr.SessionDirections
import SsrBackend.Ssr.ReceiveBounds
import SsrBackend.Ssr.KeystreamLimit
import SsrBackend.Ssr.Attribution
import SsrBackend.Ssr.KeySelection
import SsrBackend.Traffic.UserIpSet
import SsrBackend.Traffic.DeviceSlots
import SsrBackend.Traffic.Ledger
import SsrBackend.Traffic.LedgerLaws
import SsrBackend.Relay.Policy
import SsrBackend.Relay.CidrBlocks
import SsrBackend.Relay.IpText
import SsrBackend.Relay.Audit
import SsrBackend.Relay.AuditRuns
import SsrBackend.Relay.Target
import SsrBackend.Relay.UdpListener
import SsrBackend.Relay.UdpRuns
import SsrBackend.Relay.ForbiddenTargets
import SsrBackend.Relay.UdpSockets
import SsrBackend.Relay.UdpTunnel
import SsrBackend.Relay.ServedUser
import SsrBackend.Relay.StreamSizes
import SsrBackend.Traffic.RateLimiter
import SsrBackend.Relay.SpeedCap
import SsrBackend.Relay.DuplexRelay
import SsrBackend.Relay.UserTables
import SsrBackend.Relay.Connection
import SsrBackend.Relay.ConnectionLog
import SsrBackend.Relay.ConnectionRuns
import SsrBackend.Relay.Fidelity
import SsrBackend.Relay.Downlink
import SsrBackend.Relay.TcpListener
import SsrBackend.Relay.Outputs
import SsrBackend.Relay.Emissions
import SsrBackend.Runtime.AuxiliaryState
import SsrBackend.Runtime.Accounting
import SsrBackend.Runtime.BoundedTtlMap
import SsrBackend.Runtime.DeviceCap
import SsrBackend.Runtime.KeyLog
import SsrBackend.Runtime.ListenerRuns
import SsrBackend.Runtime.Listeners
import SsrBackend.Runtime.PanelClient
import SsrBackend.Runtime.PanelUser
import SsrBackend.Runtime.MainLoop
import SsrBackend.Runtime.LoopRuns
import SsrBackend.Runtime.Billing
import SsrBackend.Runtime.Lifecycle
import SsrBackend.Runtime.InForce
import SsrBackend.Runtime.Observations
import SsrBackend.Runtime.Backend
import SsrBackend.Runtime.Fleet
import SsrBackend.Runtime.Grounds
import SsrBackend.Runtime.Startup
import SsrBackend.Runtime.Service
import SsrBackend.Runtime.Components
import SsrBackend.Runtime.PollWaits
import SsrBackend.Runtime.Capacity
import SsrBackend.Runtime.Access
import SsrBackend.Runtime.PolicyText
import SsrBackend.Runtime.Reconciliation
import SsrBackend.Runtime.Supervisor
import SsrBackend.Runtime.Tables
import SsrBackend.Runtime.TtlMapRuns
import SsrBackend.Runtime.OwnEntries
import SsrBackend.Runtime.OrdinaryPort
