import WebrtcStreamer.Lib.Transition
import WebrtcStreamer.Streamer.State

/-!
# `Streamer.Step` — the threads of the streamer (`src/WebRTCStreamer.cpp`)

`step` interleaves the threads: an action names the thread that moves and whatever is not up to the program
(the order of an `unordered_map`, the expiry of a timeout, the reading of a clock, an exception of the
library). A step that would wait, for a lock, for room or for an item, is not enabled. An exception that
leaves a thread's function ends the process: `fault` is set and nothing moves any more.

The queue operations are single steps by `Monitor.exec_linearized`. `process` belongs to the step that pops
its message: it reads the registry once, and only the loop itself changes that.

`Stepped` is the inversion of `step`, one constructor for each way through it; the invariants are proved by
cases on it.
-/

namespace WebrtcStreamer

namespace Streamer

/-! ## Actions -/

/-- `PeerConnection::State`. -/
inductive PeerState
  | new
  | connecting
  | connected
  | disconnected
  | failed
  | closed
deriving DecidableEq

/-- `PeerConnection::GatheringState`. -/
inductive GatheringState
  | new
  | inProgress
  | complete
deriving DecidableEq

inductive OnMessageAction (ι : Type)
  | receive (tag : ι) (data : Data)
  | push

inductive CollectorAction
  | check
  | lock (order : List Entry)
  | get (expired : Bool)
  | push
  | unlock

inductive LoopAction
  | check
  | pop
  | emplace
  | erase
  | destroy
  | answer
  | send (threw : Bool)
  | join

inductive MultimediaAction
  | check
  | pop
  | lock (order : List Entry)
  | enter
  | leave (threw : Bool)
  | unlock

inductive PushDataAction
  | call (buffer : Option Bytes)
  | lock (caller : Nat)
  | stamp (time : Timeval)
  | push

inductive ClientAction
  | check
  | pop
  | apply (threw : Bool)
  | stateChange (state : PeerState)
  | gatheringStateChange (state : GatheringState) (type : DescriptionType) (sdp : Bytes)
  | push (callback : Nat)

inductive Action (ι : Type)
  | onMessage (a : OnMessageAction ι)
  | collector (a : CollectorAction)
  | loop (a : LoopAction)
  | multimedia (a : MultimediaAction)
  | pushData (a : PushDataAction)
  | client (c : ClientRef) (a : ClientAction)
  | destructor

variable {ι : Type} (C : Codec)

/-! ## Steps of each thread -/

/-- The `onMessage` callback. An exception in it is caught by the library and drops the message. -/
def stepOnMessage (s : State ι) : OnMessageAction ι → Option (State ι)
  | .receive tag data =>
      match s.onMessage with
      | .idle =>
          match Streamer.onMessage C data with
          | .ok (some text) =>
              some { s with onMessage := .pushing { text := text, source := .inbound tag data } }
          | .ok none | .error _ => some s  -- returned early, or the library caught an exception
      | _ => none
  | .push =>
      match s.onMessage with
      | .pushing item => do
          let q ← s.signalingQueue.tryPush item
          some { s with signalingQueue := q, onMessage := .idle }
      | _ => none

/-- `signalingThreadOut`. -/
def stepCollector (s : State ι) : CollectorAction → Option (State ι)
  | .check =>
      match s.collector with
      | .top => some { s with collector := if s.doTerm then .done else .locking }
      | _ => none
  | .lock order =>
      match s.collector with
      | .locking =>
          if s.loop.exclusiveHeld = false ∧ order.Perm s.clientsMap.entries then
            some { s with collector := .walking order }
          else none
      | _ => none
  | .get expired =>
      match s.collector with
      | .walking (e :: rest) => do
          -- signalingGet(100 ms)
          let client ← s.clients[e.2]?
          match ← client.signalingQueueOut.tryPopFor expired with
          | (some text, q) =>
              some { s with
                clients := s.clients.set e.2 { client with signalingQueueOut := q }
                collector := .holding { text := text, source := .client e.2 } rest }
          | (none, _) => some { s with collector := .walking rest }
      | _ => none
  | .push =>
      match s.collector with
      | .holding item rest => do
          -- still inside the traversal
          let q ← s.signalingQueue.tryPush item
          some { s with signalingQueue := q, collector := .walking rest }
      | _ => none
  | .unlock =>
      match s.collector with
      | .walking [] => some { s with collector := .top }
      | _ => none

/-- What the loop does with the verdict on a message; a request constructs a `Client` first. The constructor is
    taken not to throw: `setLocalDescription` makes a certificate and starts the ICE transport in it, and both can
    fail for want of resources. -/
def dispatch (s : State ι) (source : Source ι) : Verdict → State ι
  | .skip => { s with loop := .top }
  | .request id =>
      { s with
        clients := s.clients ++ [Client.new id]
        loop := .emplacing id s.clients.length source }
  | .answer client sdp => { s with loop := .answering client sdp source }
  | .erase id => { s with loop := .erasing id source }
  | .send message => { s with loop := .sending message source }

/-- Begin the destruction of a client under the exclusive lock. -/
def release (s : State ι) (c : ClientRef) : Option (State ι) := do
  let client ← s.clients[c]?
  some { s with clients := s.clients.set c { client with lifetime := .setTerm }, loop := .destroying c }

/-- The signaling loop of `_signalingThr`. -/
def stepLoop (s : State ι) : LoopAction → Option (State ι)
  | .check =>
      match s.loop with
      | .top => some { s with loop := if s.doTerm then .joining else .polling }
      | _ => none
  | .pop =>
      match s.loop with
      | .polling => do
          match ← s.signalingQueue.tryPop with
          | (none, _) => some { s with loop := .top }  -- the queue has been stopped
          | (some item, q) =>
              match process C s.clientsMap item.text with
              | .ok verdict => some (dispatch { s with signalingQueue := q } item.source verdict)
              | .error e => some { s with signalingQueue := q, fault := some (.json e) }
      | _ => none
  | .emplace =>
      match s.loop with
      | .emplacing id c _ =>
          if s.sharedHeld then none
          -- the temporary of a request for a registered id is destroyed again
          else if id ∈ s.clientsMap then release s c
          else some { s with clientsMap := s.clientsMap.insert id c, loop := .top }
      | _ => none
  | .erase =>
      match s.loop with
      | .erasing id _ =>
          if s.sharedHeld then none
          else
            match s.clientsMap.lookup id with
            | none => some { s with loop := .top }
            -- the map held the last reference
            | some c => release { s with clientsMap := s.clientsMap.erase id } c
      | _ => none
  | .destroy =>
      match s.loop with
      | .destroying c => do
          let client ← s.clients[c]?
          let client' ← client.destroy
          some { s with
            clients := s.clients.set c client'
            loop := if client'.lifetime = .destroyed then .top else .destroying c }
      | _ => none
  | .answer =>
      match s.loop with
      | .answering c sdp _ => do
          -- signalingSet
          let client ← s.clients[c]?
          let q ← client.signalingQueueIn.tryPush sdp
          some { s with clients := s.clients.set c { client with signalingQueueIn := q }, loop := .top }
      | _ => none
  | .send threw =>
      match s.loop with
      | .sending _ _ =>
          if threw then some { s with fault := some .webSocketSend } else some { s with loop := .top }
      | _ => none
  | .join =>
      match s.loop, s.collector with
      | .joining, .done => some { s with loop := .done }
      | _, _ => none

/-- `_multimediaThr`. -/
def stepMultimedia (s : State ι) : MultimediaAction → Option (State ι)
  | .check =>
      match s.multimedia with
      | .top => some { s with multimedia := if s.doTerm then .done else .polling }
      | _ => none
  | .pop =>
      match s.multimedia with
      | .polling => do
          match ← s.framesQueueIn.tryPop with
          | (none, _) => some { s with multimedia := .top }
          | (some frame, q) => some { s with framesQueueIn := q, multimedia := .locking frame }
      | _ => none
  | .lock order =>
      match s.multimedia with
      | .locking frame =>
          if s.loop.exclusiveHeld = false ∧ order.Perm s.clientsMap.entries then
            some { s with multimedia := .walking frame order }
          else none
      | _ => none
  | .enter =>
      match s.multimedia with
      -- the call of the lambda of the traversal
      | .walking frame (e :: rest) => some { s with multimedia := .sending frame e rest }
      | _ => none
  | .leave threw =>
      match s.multimedia with
      | .sending frame _ rest =>
          if threw then some { s with fault := some .sendFrame }
          else some { s with multimedia := .walking frame rest }
      | _ => none
  | .unlock =>
      match s.multimedia with
      | .walking _ [] => some { s with multimedia := .top }
      | _ => none

/-- `pushData`, called by any number of threads. -/
def stepPushData (s : State ι) : PushDataAction → Option (State ι)
  | .call buffer => some { s with callers := s.callers ++ [buffer] }
  | .lock caller =>
      match s.publicApi, s.callers[caller]? with
      | none, some buffer =>
          some { s with callers := s.callers.eraseIdx caller, publicApi := some (.entered buffer) }
      | _, _ => none
  | .stamp time =>
      match s.publicApi with
      -- a null pointer or size 0: nothing is read from the clock
      | some (.entered none) | some (.entered (some [])) => some { s with publicApi := none }
      | some (.entered (some data)) =>
          some { s with publicApi := some (.pushing { data := data, sampleTime := time.sampleTime }) }
      | _ => none
  | .push =>
      match s.publicApi with
      | some (.pushing frame) => do
          let q ← s.framesQueueIn.tryPush frame
          some { s with framesQueueIn := q, publicApi := none }
      | _ => none

/-- The message that the state-change callback pushes, if it pushes one. -/
def stateChangeMessage (id : Bytes) : PeerState → Option Bytes
  | .disconnected | .failed | .closed => C.dump (disconnectMessage id)
  | _ => none

/-- The message that the gathering-state callback pushes, if it pushes one. -/
def gatheringMessage (id : Bytes) (type : DescriptionType) (sdp : Bytes) : GatheringState → Option Bytes
  | .complete => C.dump (descriptionMessage id type sdp)
  | _ => none

/-- A client's own signaling thread and the callbacks of its `PeerConnection`. -/
def stepClient (client : Client) : ClientAction → Option (Client × Option Fault)
  | .check =>
      match client.thread with
      | .top => some ({ client with thread := if client.doTerm then .done else .polling }, none)
      | _ => none
  | .pop =>
      match client.thread with
      | .polling => do
          match ← client.signalingQueueIn.tryPop with
          | (none, _) => some ({ client with thread := .top }, none)
          | (some sdp, q) => some ({ client with signalingQueueIn := q, thread := .applying sdp }, none)
      | _ => none
  | .apply threw =>
      match client.thread with
      | .applying _ =>
          -- nothing in `_signalingThr` catches it
          if threw then some (client, some .setRemoteDescription)
          else some ({ client with thread := .top }, none)
      | _ => none
  | .stateChange state =>
      if client.lifetime = .destroyed then none
      else some ({ client with
        callbacks := client.callbacks ++ (stateChangeMessage C client.id state).toList }, none)
  | .gatheringStateChange state type sdp =>
      if client.lifetime = .destroyed then none
      else some ({ client with
        callbacks := client.callbacks ++ (gatheringMessage C client.id type sdp state).toList }, none)
  | .push callback =>
      if client.lifetime = .destroyed then none
      else do
        let text ← client.callbacks[callback]?
        let q ← client.signalingQueueOut.tryPush text
        some ({ client with signalingQueueOut := q, callbacks := client.callbacks.eraseIdx callback }, none)

/-- `~WebRTCStreamer`. -/
def stepDestructor (s : State ι) : Option (State ι) :=
  match s.destructor with
  | .idle => some { s with doTerm := true, destructor := .stopSignaling }
  | .stopSignaling =>
      some { s with signalingQueue := s.signalingQueue.stop, destructor := .closeWebSocket }
  | .closeWebSocket => some { s with destructor := .joinSignaling }
  | .joinSignaling =>
      match s.loop with
      | .done => some { s with destructor := .stopFrames }
      | _ => none
  -- the multimedia thread may have waited for a frame until now
  | .stopFrames => some { s with framesQueueIn := s.framesQueueIn.stop, destructor := .joinMultimedia }
  | .joinMultimedia =>
      match s.multimedia with
      | .done => some { s with destructor := .releasing }
      | _ => none
  | .releasing =>
      -- the member `_clientsMap` goes, one entry after the other
      match s.clientsMap.entries with
      | [] => some { s with destructor := .done }
      | e :: _ => do
          let client ← s.clients[e.2]?
          some { s with
            clientsMap := s.clientsMap.erase e.1
            clients := s.clients.set e.2 { client with lifetime := .setTerm }
            destructor := .destroying e.2 }
  | .destroying c => do
      let client ← s.clients[c]?
      let client' ← client.destroy
      some { s with
        clients := s.clients.set c client'
        destructor := if client'.lifetime = .destroyed then .releasing else .destroying c }
  | .done => none

/-- One step of the streamer. -/
def step (s : State ι) (a : Action ι) : Option (State ι) :=
  if s.fault.isSome then none
  else
    match a with
    | .onMessage a => stepOnMessage C s a
    | .collector a => stepCollector s a
    | .loop a => stepLoop C s a
    | .multimedia a => stepMultimedia s a
    | .pushData a => stepPushData s a
    | .client c a => do
        let client ← s.clients[c]?
        let (client', fault) ← stepClient C client a
        some { s with clients := s.clients.set c client', fault := fault }
    | .destructor => stepDestructor s

end Streamer

end WebrtcStreamer
