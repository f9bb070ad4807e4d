import WebrtcStreamer.Streamer.Messages
import WebrtcStreamer.Utils.BlockingQueue

/-!
# `Streamer.State` — the state of `WebRTCStreamer` (`src/WebRTCStreamer.h`)

The members of the class and where each of its threads stands. A thread's position names the statement it
is about to execute, with the local variables that are live there.

No field stands for the mutex in `SafeUMap`: `sharedHeld` and `exclusiveHeld` read off the positions
whether somebody is between its acquisition and its release.

Every item of the signaling queue carries a `Source` beside its text, which no step looks at: the data it
was received as, or the client whose callback produced it. The type `ι` is for whatever a bigger system
wants to remember about a received message.
-/

namespace WebrtcStreamer

namespace Streamer

/-! ## Frames -/

/-- What `gettimeofday` returns. The kernel's clock counts nanoseconds in 63 bits, which bounds the
    seconds. -/
structure Timeval where
  tvSec : Nat
  tvUsec : Nat
  tvSec_le : tvSec ≤ 9223372036
  tvUsec_lt : tvUsec < 1000000

structure Frame where
  data : Bytes
  sampleTime : UInt64
deriving DecidableEq

/-- `uint64_t(time.tv_sec) * 1000 * 1000 + time.tv_usec`. -/
def Timeval.sampleTime (time : Timeval) : UInt64 :=
  UInt64.ofNat time.tvSec * 1000 * 1000 + UInt64.ofNat time.tvUsec

/-! ## Clients -/

/-- A client's signaling thread. -/
inductive ClientThread
  | top
  | polling
  | applying (sdp : Bytes)  -- setRemoteDescription
  | done
deriving DecidableEq

/-- How far `~Client` has got: the next statement of its body. -/
inductive Lifetime
  | live
  | setTerm
  | stopIn
  | stopOut
  | close
  | join
  | destroyed
deriving DecidableEq

structure Client where
  id : Bytes
  signalingQueueIn : BlockingQueue Bytes
  signalingQueueOut : BlockingQueue Bytes
  doTerm : Bool
  /-- The messages of the callbacks that have been invoked and have not pushed yet. -/
  callbacks : List Bytes
  thread : ClientThread
  lifetime : Lifetime
deriving DecidableEq

/-- The constructor of `Client`. -/
def Client.new (id : Bytes) : Client where
  id := id
  signalingQueueIn := .new 32
  signalingQueueOut := .new 32
  doTerm := false
  callbacks := []
  thread := .top
  lifetime := .live

/-- One statement of `~Client`; `join` waits for the client's thread. -/
def Client.destroy (client : Client) : Option Client :=
  match client.lifetime with
  | .live | .destroyed => none
  | .setTerm => some { client with doTerm := true, lifetime := .stopIn }
  | .stopIn => some { client with signalingQueueIn := client.signalingQueueIn.stop, lifetime := .stopOut }
  | .stopOut => some { client with signalingQueueOut := client.signalingQueueOut.stop, lifetime := .close }
  | .close => some { client with lifetime := .join }
  | .join => if client.thread = .done then some { client with lifetime := .destroyed } else none

/-- An entry of `_clientsMap`. -/
abbrev Entry := Sigma (fun _ : Bytes => ClientRef)

/-! ## Messages in the signaling queue -/

inductive Source (ι : Type)
  | inbound (tag : ι) (data : Data)
  | client (client : ClientRef)
deriving DecidableEq

structure Item (ι : Type) where
  text : Bytes
  source : Source ι
deriving DecidableEq

/-! ## Threads -/

/-- The `onMessage` callback. -/
inductive OnMessage (ι : Type)
  | idle
  | pushing (item : Item ι)
deriving DecidableEq

/-- `signalingThreadOut`; from `walking` on it holds the shared lock. -/
inductive Collector (ι : Type)
  | top
  | locking
  | walking (rest : List Entry)
  | holding (item : Item ι) (rest : List Entry)
  | done
deriving DecidableEq

/-- The signaling loop; at `emplacing` and `erasing` it is about to take the exclusive lock, at
    `destroying` it holds it. -/
inductive Loop (ι : Type)
  | top
  | polling
  | emplacing (id : Bytes) (client : ClientRef) (source : Source ι)
  | erasing (id : Bytes) (source : Source ι)
  | destroying (client : ClientRef)
  | answering (client : ClientRef) (sdp : Bytes) (source : Source ι)
  | sending (message : Bytes) (source : Source ι)
  | joining
  | done
deriving DecidableEq

/-- `_multimediaThr`; from `walking` on it holds the shared lock. -/
inductive Multimedia
  | top
  | polling
  | locking (frame : Frame)
  | walking (frame : Frame) (rest : List Entry)
  | sending (frame : Frame) (client : Entry) (rest : List Entry)  -- in Client::sendFrame
  | done
deriving DecidableEq

/-- The call of `pushData` that holds `_publicApiMutex`. A buffer is `none` for a null pointer. -/
inductive PushData
  | entered (buffer : Option Bytes)
  | pushing (frame : Frame)
deriving DecidableEq

/-- `~WebRTCStreamer`: its body, then the destruction of `_clientsMap`. -/
inductive Destructor
  | idle
  | stopSignaling
  | closeWebSocket
  | joinSignaling
  | stopFrames
  | joinMultimedia
  | releasing
  | destroying (client : ClientRef)
  | done
deriving DecidableEq

/-- Exceptions that leave a thread's function and end the process. -/
inductive Fault
  | json (e : Json.Error)  -- from the signaling loop
  | webSocketSend
  | setRemoteDescription
  | sendFrame
deriving DecidableEq

structure State (ι : Type) where
  doTerm : Bool
  fault : Option Fault
  clientsMap : ClientsMap
  clients : List Client
  signalingQueue : BlockingQueue (Item ι)
  framesQueueIn : BlockingQueue Frame
  onMessage : OnMessage ι
  collector : Collector ι
  loop : Loop ι
  multimedia : Multimedia
  /-- Calls of `pushData` that wait for `_publicApiMutex`. -/
  callers : List (Option Bytes)
  publicApi : Option PushData
  destructor : Destructor

/-- After the constructor. -/
def init (ι : Type) : State ι where
  doTerm := false
  fault := none
  clientsMap := ∅
  clients := []
  signalingQueue := .new 256
  framesQueueIn := .new 256
  onMessage := .idle
  collector := .top
  loop := .top
  multimedia := .top
  callers := []
  publicApi := none
  destructor := .idle

variable {ι : Type}

/-! ## The lock of the registry -/

/-- What the collector still has to visit; it holds the shared lock meanwhile. -/
def Collector.rest : Collector ι → Option (List Entry)
  | .walking rest | .holding _ rest => some rest
  | _ => none

/-- What the multimedia thread still has to visit, the client it is at included. -/
def Multimedia.rest : Multimedia → Option (List Entry)
  | .walking _ rest => some rest
  | .sending _ client rest => some (client :: rest)
  | _ => none

/-- Somebody holds the shared lock. -/
def State.sharedHeld (s : State ι) : Bool := s.collector.rest.isSome || s.multimedia.rest.isSome

/-- The signaling loop, the only thread that takes it, holds the exclusive lock. -/
def Loop.exclusiveHeld : Loop ι → Bool
  | .destroying _ => true
  | _ => false

/-- The signaling loop waits for the exclusive lock. -/
def Loop.wantsExclusive : Loop ι → Bool
  | .emplacing _ _ _ | .erasing _ _ => true
  | _ => false

end Streamer

end WebrtcStreamer
