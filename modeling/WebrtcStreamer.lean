import WebrtcStreamer.Lib.Transition
import WebrtcStreamer.Lib.Monitor
import WebrtcStreamer.Lib.Wakeup
import WebrtcStreamer.Lib.SharedMutex
import WebrtcStreamer.Lib.Incremental
import WebrtcStreamer.Lib.Json
import WebrtcStreamer.Lib.JsonText
import WebrtcStreamer.Lib.Rounding
import WebrtcStreamer.Lib.BigEndian
import WebrtcStreamer.Utils.BlockingQueue
import WebrtcStreamer.Utils.BlockingQueueCorrect
import WebrtcStreamer.Utils.SafeUMap
import WebrtcStreamer.Utils.SafeUMapCorrect
import WebrtcStreamer.Relay.Callback
import WebrtcStreamer.Relay.Registry
import WebrtcStreamer.Relay.Authenticity
import WebrtcStreamer.Relay.Chunking
import WebrtcStreamer.Relay.Effect
import WebrtcStreamer.Relay.Routability
import WebrtcStreamer.Streamer.Messages
import WebrtcStreamer.Streamer.State
import WebrtcStreamer.Streamer.Step
import WebrtcStreamer.Streamer.Inversion
import WebrtcStreamer.Streamer.Invariant
import WebrtcStreamer.Streamer.Lifetimes
import WebrtcStreamer.Streamer.ClientsMap
import WebrtcStreamer.Streamer.Provenance
import WebrtcStreamer.Streamer.Collection
import WebrtcStreamer.Streamer.TrustBoundary
import WebrtcStreamer.Streamer.Offers
import WebrtcStreamer.Streamer.StaleDisconnect
import WebrtcStreamer.Streamer.Deadlock
import WebrtcStreamer.Streamer.Shutdown
import WebrtcStreamer.Streamer.Robustness
import WebrtcStreamer.Streamer.Answers
import WebrtcStreamer.Streamer.Outgoing
import WebrtcStreamer.Streamer.Frames
import WebrtcStreamer.System.Composition
import WebrtcStreamer.System.Routing
import WebrtcStreamer.Teardown.LatePush
import WebrtcStreamer.Teardown.Simulation
import WebrtcStreamer.Rtc.Objects
import WebrtcStreamer.Rtc.Reconnect
import WebrtcStreamer.Rtc.Answers
import WebrtcStreamer.Rtc.Tracks
import WebrtcStreamer.Media.NalUnit
import WebrtcStreamer.Media.StartSequence
import WebrtcStreamer.Media.Packetizer
import WebrtcStreamer.Media.Depacketizer
import WebrtcStreamer.Media.Fragments
import WebrtcStreamer.Media.Packets
import WebrtcStreamer.Media.RoundTrip
import WebrtcStreamer.Media.Rtcp
import WebrtcStreamer.Media.Nack
import WebrtcStreamer.Media.Storage
import WebrtcStreamer.Media.Report
import WebrtcStreamer.Media.Track
import WebrtcStreamer.Media.Transmission
import WebrtcStreamer.Media.Timestamp
import WebrtcStreamer.System.Delivery
import WebrtcStreamer.WebSocket.Frame
import WebrtcStreamer.WebSocket.TcpTransport
import WebrtcStreamer.WebSocket.Handshake
import WebrtcStreamer.WebSocket.Transport
import WebrtcStreamer.WebSocket.Assembly
import WebrtcStreamer.WebSocket.Bounds
import WebrtcStreamer.WebSocket.Fragmentation
