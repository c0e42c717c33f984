import EngineIo.Concurrency.Pool
import EngineIo.Codec.Base64
import EngineIo.Codec.Packet
import EngineIo.Client.Socket
import EngineIo.Client.Goroutine
import EngineIo.Client.Flush
import EngineIo.Client.Lifecycle
import EngineIo.Client.Line
import EngineIo.Client.Delivery
import EngineIo.Client.Isolation
import EngineIo.Server.Socket
import EngineIo.Server.Goroutine
import EngineIo.Server.Outbound
import EngineIo.Server.Upgrade
import EngineIo.Client.Switchover
import EngineIo.Client.Teardown
import EngineIo.Client.CloseCompletes
import EngineIo.Client.AbandonedUpgrade
import EngineIo.Concurrency.Counter
import EngineIo.Client.Steady
import EngineIo.Client.Passage
import EngineIo.Codec.Cursor
import EngineIo.Codec.Payload
import EngineIo.Codec.Stream
import EngineIo.Codec.WebTransport
import EngineIo.Codec.Decoded
import EngineIo.EndToEnd.Upload
import EngineIo.Server.Heartbeat
import EngineIo.Server.Release
import EngineIo.Server.Handshake
import EngineIo.Server.PollSlot
import EngineIo.EndToEnd.System
import EngineIo.Server.Outgoing
import EngineIo.EndToEnd.Exchange
import EngineIo.EndToEnd.Handover
import EngineIo.EndToEnd.Delivery
import EngineIo.Codec.WebTransportStream
import EngineIo.Server.ReadLoop
import EngineIo.Client.Fallback
import EngineIo.Client.Backlog
import EngineIo.Server.Closing
import EngineIo.Server.Registry
import EngineIo.Server.Inbound
import EngineIo.Client.TransportStates
import EngineIo.Codec.RecordSeparator
import EngineIo.Codec.Framing
import EngineIo.Codec.StringFraming
import EngineIo.Codec.BinaryFraming
import EngineIo.Client.Notification
import EngineIo.Client.PauseBarrier
import EngineIo.Client.Yeast
import EngineIo.Server.Cors
import EngineIo.Data.Query
import EngineIo.Data.Json
import EngineIo.Codec.OpenPacket
import EngineIo.Client.Address
import EngineIo.EndToEnd.Establishment
import EngineIo.EndToEnd.Uplink
import EngineIo.EndToEnd.UplinkEnds
import EngineIo.EndToEnd.Receipt
import EngineIo.Concurrency.Stock
import EngineIo.Server.GzipPools
import EngineIo.Server.PollBuffers
import EngineIo.Concurrency.Locks
import EngineIo.Server.FlushLocks
import EngineIo.Server.Shutdown
import EngineIo.Server.SessionId
import EngineIo.Server.Deadlines
import EngineIo.Client.Deadlines
import EngineIo.EndToEnd.Heartbeat
