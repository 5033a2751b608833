import MilliHttp.Lib.Method
import MilliHttp.Lib.Run
import MilliHttp.Packet
import MilliHttp.Crypto
import MilliHttp.Frame
import MilliHttp.Transport.FlowControl
import MilliHttp.Transport.Stream
import MilliHttp.Transport.Recovery
import MilliHttp.Tls.Progress
import MilliHttp.Connection.Transmit
import MilliHttp.Connection.Steps
import MilliHttp.Connection.Effects
import MilliHttp.Connection.Handshaking
import MilliHttp.Standin
import MilliHttp.RecvBounds
import MilliHttp.Unauthenticated
import MilliHttp.FrameGate
import MilliHttp.Authentication
import MilliHttp.KeyLifetime
import MilliHttp.ReceiveFlow
import MilliHttp.StreamData
import MilliHttp.StreamIntegrity
import MilliHttp.Connection.Updates
import MilliHttp.Amplification
import MilliHttp.InFlight
import MilliHttp.Lib.Keyed
import MilliHttp.Hpack.Tables
import MilliHttp.Hpack.Codec
import MilliHttp.H2.Frame
import MilliHttp.H2.State
import MilliHttp.H2.Calls
import MilliHttp.H2.Recv
import MilliHttp.H2.Steps
import MilliHttp.H2.Effects
import MilliHttp.H2.ReceiveCredit
import MilliHttp.H2.SendWindows
import MilliHttp.H2.Quiet
import MilliHttp.H2.LifeCycle
import MilliHttp.H2.ClientStart
import MilliHttp.H2.FailedSends
import MilliHttp.H2.BodyDelivery
import MilliHttp.Tls.Hashed
import MilliHttp.Tls.Updates
import MilliHttp.Tls.Flights
import MilliHttp.TcpTls.Connection
import MilliHttp.Tls.Secrets
import MilliHttp.Nonces
import MilliHttp.TcpTls.RecordNonces
import MilliHttp.TcpTls.FlightDelivery
import MilliHttp.Http1.Chunking
import MilliHttp.Http1.Delivery
import MilliHttp.Retention
import MilliHttp.Backpressure
import MilliHttp.PoolSlots
import MilliHttp.Transport.FinalSize
import MilliHttp.AckFrames
import MilliHttp.H3.Qpack
import MilliHttp.SendQueue
import MilliHttp.Server.Kits
import MilliHttp.Server.Ids
import MilliHttp.H3.Control
import MilliHttp.AeadLimit
import MilliHttp.ReplayFilter
import MilliHttp.Reassembly
import MilliHttp.Closing
import MilliHttp.StreamLimits
import MilliHttp.AckProcessing
import MilliHttp.Transport.LossDetection
import MilliHttp.TimerArithmetic
import MilliHttp.Http1.FailedSends
import MilliHttp.Http1.EmittedHeads
import MilliHttp.Http1.Timeouts
import MilliHttp.H2.HeaderBlocks
import MilliHttp.Hpack.Refinement
import MilliHttp.Hpack.Integers
import MilliHttp.H3.RoundTrip
import MilliHttp.TcpTls.RecordLimits
import MilliHttp.Tls.RoundTrip
import MilliHttp.Tls.Offers
import MilliHttp.TimerProgress
import MilliHttp.AckBounds
import MilliHttp.Server.PeerEof
import MilliHttp.Tls.KeySets
import MilliHttp.TcpTls.KeySets
import MilliHttp.KeySets
import MilliHttp.Sse
import MilliHttp.BufRuns
import MilliHttp.H3.FrameCodec
import MilliHttp.Hpack.HuffmanBijection
import MilliHttp.PacketCodec
import MilliHttp.InitialSize
import MilliHttp.PacketNumbers
import MilliHttp.H2.ParserAgreement
import MilliHttp.Server.Runner
import MilliHttp.StreamTransfer
import MilliHttp.CongestionWindow
