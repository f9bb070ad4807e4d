import Mathlib.Logic.Function.Basic
import WebrtcStreamer.Streamer.Shutdown
import WebrtcStreamer.WebSocket.TcpTransport

/-!
# `Rtc.Objects` — the streamer and the objects of the `rtc` library it holds

`Streamer.step` leaves it open when a call of the library throws. Here the objects that decide it have a
state: the `WebSocket`, and for each client the signaling state of its `PeerConnection` and its `Track`.
They change at any moment, on threads of the library.

* `WebSocket::open` throws unless the socket is closed, and `close` only does something while it is connecting
  or open.
* `WebSocket::send` throws unless the socket is open, or for a message that is too long. Behind these two tests
  it goes through the transports below, which have states of their own: a connection may be reset, or lost,
  before the thread that polls has noticed and told the `WebSocket`, and then they throw.
* `onClosed` is called back when the transports have been closed; the callback may sleep and open again.
* `Description` and `setRemoteDescription` throw on a description that is not well formed, and on an answer
  in signaling state `Stable`, which the first answer leads to. The transports are taken to be there as long as
  an answer is applied: one of its candidates makes `setRemoteDescription` throw too if they have just been
  closed, which this file leaves out.
* `Track::sendFrame` throws if the track is closed or has no transport. That SRTP refuses to protect a packet,
  for which `sendMedia` throws, is left out here; `Media.Track` has it.

A step of the streamer stays what it is and is taken only if the library does what it supposes
(`exec_streamer`), so that whatever holds of the streamer's runs holds here.
-/

namespace WebrtcStreamer

namespace Rtc

open Transition
open Streamer (ClientRef)

/-! ## The objects -/

/-- `WebSocket::State`. -/
inductive WebSocket
  | connecting
  | opened
  | closing
  | closed
deriving DecidableEq

/-- `WebSocket::open`; `none` if it throws. -/
def webSocketOpen : WebSocket → Option WebSocket
  | .closed => some .connecting
  | _ => none

/-- `WebSocket::close`. -/
def webSocketClose : WebSocket → WebSocket
  | .connecting | .opened => .closing
  | webSocket => webSocket

/-- What is below the `WebSocket`; there is no TLS between the two transports. -/
structure Connection where
  /-- The state of the `WsTransport`. -/
  wsTransport : WebSocket.TransportState
  /-- The state of the `TcpTransport`. -/
  tcpTransport : WebSocket.TransportState
  /-- `::send` fails on the TCP socket. -/
  broken : Bool
deriving DecidableEq

/-- Before the first connection. -/
def Connection.none : Connection where
  wsTransport := .disconnected
  tcpTransport := .disconnected
  broken := false

/-- Behind the handshake. -/
def Connection.established : Connection where
  wsTransport := .connected
  tcpTransport := .connected
  broken := false

/-- `WsTransport::send` throws, or `TcpTransport::send` or `trySendMessage` below it. A frame is never empty, so
    `::send` is called. -/
def Connection.sendThrows (connection : Connection) : Bool :=
  connection.wsTransport != .connected || connection.tcpTransport != .connected || connection.broken

/-- `DEFAULT_WS_MAX_MESSAGE_SIZE`. -/
def maxMessageSize : Nat := 256 * 1024

/-- `WebSocket::send` throws. -/
def sendThrows (webSocket : WebSocket) (connection : Connection) (message : Bytes) : Bool :=
  webSocket != .opened || decide (maxMessageSize < message.length) || connection.sendThrows

/-- The `onClosed` callback. -/
inductive OnClosed
  | idle
  | entered
  | sleeping  -- has found `_do_term` not set
deriving DecidableEq

/-- `Track`: `mIsClosed`, and whether `mDtlsSrtpTransport` is there. -/
structure Track where
  closed : Bool
  transport : Bool
deriving DecidableEq

/-- `Track::isOpen`. -/
def Track.isOpen (track : Track) : Bool := !track.closed && track.transport

/-- `Track::sendFrame` throws, where SRTP protects the packets. -/
def Track.sendFrameThrows (track : Track) : Bool := track.closed || !track.transport

/-- The construction of the `Description` or `setRemoteDescription` throws, where the transports are still there. -/
def setRemoteDescriptionThrows (wellFormed : Bytes → Bool) (stable : Bool) (sdp : Bytes) : Bool :=
  !wellFormed sdp || stable

/-! ## The state -/

structure State (ι : Type) where
  streamer : Streamer.State ι
  /-- `_signalingThr` has opened the WebSocket. -/
  started : Bool
  webSocket : WebSocket
  connection : Connection
  onClosed : OnClosed
  /-- The signaling state of a client's `PeerConnection` is `Stable`. -/
  stable : ClientRef → Bool
  tracks : ClientRef → Track
  /-- What `isOpen` has returned in the call of `Client::sendFrame` under way. -/
  found : Option Bool

/-- After the constructor; a client's objects are as its constructor leaves them. -/
def init (ι : Type) : State ι where
  streamer := Streamer.init ι
  started := false
  webSocket := .closed
  connection := .none
  onClosed := .idle
  stable := fun _ => false
  tracks := fun _ => { closed := false, transport := false }
  found := none

/-! ## Steps -/

inductive OnClosedAction
  | test
  | reopen

/-- What happens below an open `WebSocket` before its own state changes. -/
inductive ConnectionEvent
  | reset
  | tcpLost  -- `TcpTransport::process` has noticed
  | wsLost  -- and so has `WsTransport::incoming`, or a close frame has been received

inductive TrackEvent
  | opened
  | transportLost
  | closed

/-- `start` is the `open` in `_signalingThr`; `connect` and `disconnect` are the WebSocket's own transitions,
    `isOpen` is the test in `Client::sendFrame`. -/
inductive Action (ι : Type)
  | streamer (a : Streamer.Action ι)
  | start
  | connect
  | disconnect
  | connection (e : ConnectionEvent)
  | onClosed (a : OnClosedAction)
  | isOpen
  | track (c : ClientRef) (e : TrackEvent)

def Connection.apply (connection : Connection) : ConnectionEvent → Connection
  | .reset => { connection with broken := true }
  | .tcpLost => { connection with tcpTransport := .disconnected }
  | .wsLost => { connection with wsTransport := .disconnected }

/-- What happens to a track. -/
def Track.apply (track : Track) : TrackEvent → Track
  | .opened => { track with transport := true }
  | .transportLost => { track with transport := false }
  | .closed => { track with closed := true }

variable {ι : Type} (C : Codec) (wellFormed : Bytes → Bool)

/-- The library does what a step of the streamer supposes. The loop comes after `start`, and so do messages. -/
def allows (s : State ι) : Streamer.Action ι → Bool
  | .onMessage (.receive _ _) => s.started
  | .loop (.send threw) =>
      s.started &&
        match s.streamer.loop with
        | .sending message _ => threw == sendThrows s.webSocket s.connection message
        | _ => false
  | .loop _ => s.started
  | .client c (.apply threw) =>
      match s.streamer.clients[c]?.map Streamer.Client.thread with
      | some (.applying sdp) => threw == setRemoteDescriptionThrows wellFormed (s.stable c) sdp
      | _ => false
  | .multimedia (.leave threw) =>
      match s.streamer.multimedia, s.found with
      | .sending _ e _, some true => threw == (s.tracks e.2).sendFrameThrows
      | _, some false => !threw
      | _, _ => false
  | _ => true

/-- What a step of the streamer, to the state `t`, does to the objects. -/
def follow (s : State ι) (t : Streamer.State ι) : Streamer.Action ι → State ι
  | .destructor =>
      if s.streamer.destructor = .closeWebSocket then
        { s with streamer := t, webSocket := webSocketClose s.webSocket }
      else { s with streamer := t }
  | .client c (.apply false) => { s with streamer := t, stable := Function.update s.stable c true }
  | .multimedia .enter | .multimedia (.leave _) => { s with streamer := t, found := none }
  | _ => { s with streamer := t }

/-- One step of the streamer or of the library. -/
def step (s : State ι) (a : Action ι) : Option (State ι) :=
  if s.streamer.fault.isSome then none
  else
    match a with
    | .streamer a =>
        if allows wellFormed s a then (Streamer.step C s.streamer a).map fun t => follow s t a else none
    | .start =>
        if s.started then none
        else (webSocketOpen s.webSocket).map fun webSocket => { s with started := true, webSocket := webSocket }
    | .connect =>
        if s.webSocket = .connecting then some { s with webSocket := .opened, connection := .established } else none
    | .disconnect =>
        if s.webSocket ≠ .closed ∧ s.onClosed = .idle then
          some { s with webSocket := .closed, onClosed := .entered }
        else none
    | .connection e => some { s with connection := s.connection.apply e }
    | .onClosed .test =>
        if s.onClosed = .entered then
          some { s with onClosed := if s.streamer.doTerm then .idle else .sleeping }
        else none
    | .onClosed .reopen =>
        if s.onClosed = .sleeping then
          (webSocketOpen s.webSocket).map fun webSocket => { s with onClosed := .idle, webSocket := webSocket }
        else none
    | .isOpen =>
        match s.streamer.multimedia, s.found with
        | .sending _ e _, none => some { s with found := some (s.tracks e.2).isOpen }
        | _, _ => none
    | .track c e => some { s with tracks := Function.update s.tracks c ((s.tracks c).apply e) }

variable {C wellFormed}

/-- **Inversion of a step.** -/
inductive Stepped (C : Codec) (wellFormed : Bytes → Bool) (s : State ι) : Action ι → State ι → Prop
  | streamer {a t} : allows wellFormed s a = true → Streamer.step C s.streamer a = some t →
      Stepped C wellFormed s (.streamer a) (follow s t a)
  | started {webSocket} : s.started = false → webSocketOpen s.webSocket = some webSocket →
      Stepped C wellFormed s .start { s with started := true, webSocket := webSocket }
  | connected : s.webSocket = .connecting →
      Stepped C wellFormed s .connect { s with webSocket := .opened, connection := .established }
  | disconnected : s.webSocket ≠ .closed → s.onClosed = .idle →
      Stepped C wellFormed s .disconnect { s with webSocket := .closed, onClosed := .entered }
  | changed {e} : Stepped C wellFormed s (.connection e) { s with connection := s.connection.apply e }
  | tested : s.onClosed = .entered →
      Stepped C wellFormed s (.onClosed .test)
        { s with onClosed := if s.streamer.doTerm then .idle else .sleeping }
  | reopened {webSocket} : s.onClosed = .sleeping → webSocketOpen s.webSocket = some webSocket →
      Stepped C wellFormed s (.onClosed .reopen) { s with onClosed := .idle, webSocket := webSocket }
  | found {frame e rest} : s.streamer.multimedia = .sending frame e rest → s.found = none →
      Stepped C wellFormed s .isOpen { s with found := some (s.tracks e.2).isOpen }
  | tracked {c e} :
      Stepped C wellFormed s (.track c e)
        { s with tracks := Function.update s.tracks c ((s.tracks c).apply e) }

theorem step_cases {s s' : State ι} {a : Action ι} (h : step C wellFormed s a = some s') :
    s.streamer.fault = none ∧ Stepped C wellFormed s a s' := by
  unfold step at h
  split at h
  · exact absurd h (by simp)
  · rename_i hf
    refine ⟨by simpa using hf, ?_⟩
    cases a with
    | streamer a =>
        simp only at h
        split at h
        · rename_i hallows
          obtain ⟨t, ht, rfl⟩ := Option.map_eq_some_iff.mp h
          exact .streamer hallows ht
        · exact absurd h (by simp)
    | start =>
        simp only at h
        split at h
        · exact absurd h (by simp)
        · rename_i hstarted
          obtain ⟨webSocket, hopen, rfl⟩ := Option.map_eq_some_iff.mp h
          exact .started (by simpa using hstarted) hopen
    | connect =>
        simp only at h
        split at h
        · rename_i hconnecting
          obtain rfl := Option.some.inj h
          exact .connected hconnecting
        · exact absurd h (by simp)
    | disconnect =>
        simp only at h
        split at h
        · rename_i hg
          obtain rfl := Option.some.inj h
          exact .disconnected hg.1 hg.2
        · exact absurd h (by simp)
    | connection e =>
        obtain rfl := Option.some.inj h
        exact .changed
    | onClosed a =>
        cases a with
        | test =>
            simp only at h
            split at h
            · rename_i hentered
              obtain rfl := Option.some.inj h
              exact .tested hentered
            · exact absurd h (by simp)
        | reopen =>
            simp only at h
            split at h
            · rename_i hsleeping
              obtain ⟨webSocket, hopen, rfl⟩ := Option.map_eq_some_iff.mp h
              exact .reopened hsleeping hopen
            · exact absurd h (by simp)
    | isOpen =>
        simp only at h
        split at h
        · rename_i hpc hfound
          obtain rfl := Option.some.inj h
          exact .found hpc hfound
        · exact absurd h (by simp)
    | track c e =>
        obtain rfl := Option.some.inj h
        exact .tracked

/-! ## The streamer in it -/

@[simp] theorem follow_streamer (s : State ι) (t : Streamer.State ι) (a : Streamer.Action ι) :
    (follow s t a).streamer = t := by
  unfold follow
  split
  · split <;> rfl
  · rfl
  · rfl
  · rfl
  · rfl

@[simp] theorem follow_started (s : State ι) (t : Streamer.State ι) (a : Streamer.Action ι) :
    (follow s t a).started = s.started := by
  unfold follow
  split
  · split <;> rfl
  · rfl
  · rfl
  · rfl
  · rfl

@[simp] theorem follow_onClosed (s : State ι) (t : Streamer.State ι) (a : Streamer.Action ι) :
    (follow s t a).onClosed = s.onClosed := by
  unfold follow
  split
  · split <;> rfl
  · rfl
  · rfl
  · rfl
  · rfl

/-- The streamer itself only closes the socket. -/
theorem follow_webSocket (s : State ι) (t : Streamer.State ι) (a : Streamer.Action ι) :
    (follow s t a).webSocket = s.webSocket ∨ (follow s t a).webSocket = webSocketClose s.webSocket := by
  unfold follow
  split
  · split
    · exact .inr rfl
    · exact .inl rfl
  · exact .inl rfl
  · exact .inl rfl
  · exact .inl rfl
  · exact .inl rfl

/-- The step of the streamer that an action is. -/
def Action.streamer? : Action ι → Option (Streamer.Action ι)
  | .streamer a => some a
  | _ => none

/-- The streamer's part of a run. -/
def streamerRun (as : List (Action ι)) : List (Streamer.Action ι) := as.filterMap Action.streamer?

/-- A step moves the streamer as one of its own, or not at all. -/
theorem streamer_step {s s' : State ι} {a : Action ι} (h : step C wellFormed s a = some s') :
    exec (Streamer.step C) s.streamer a.streamer?.toList = some s'.streamer := by
  cases (step_cases h).2 with
  | @streamer a t _ ht =>
      rw [follow_streamer]
      exact exec_cons_some.mpr ⟨t, ht, rfl⟩
  | started _ _ | connected _ | disconnected _ _ | changed | tested _ | reopened _ _ | found _ _ | tracked => rfl

theorem streamerRun_snoc (as : List (Action ι)) (a : Action ι) :
    streamerRun (as ++ [a]) = streamerRun as ++ a.streamer?.toList := by
  unfold streamerRun
  rw [List.filterMap_append]
  cases h : a.streamer? <;> simp [h]

/-- **Projection.** The streamer's part of a run is a run of the streamer. -/
theorem exec_streamer {as : List (Action ι)} {s : State ι} (h : exec (step C wellFormed) (init ι) as = some s) :
    exec (Streamer.step C) (Streamer.init ι) (streamerRun as) = some s.streamer := by
  refine exec_induction
    (motive := fun as s => exec (Streamer.step C) (Streamer.init ι) (streamerRun as) = some s.streamer)
    rfl ?_ as s h
  intro as s a s' _ ih hst
  rw [streamerRun_snoc]
  exact exec_append_some.mpr ⟨s.streamer, ih, streamer_step hst⟩

/-- What an invariant of the streamer says holds here too. -/
theorem streamer_invariant {I : Streamer.State ι → Prop}
    (next : ∀ s a s', I s → Streamer.step C s a = some s' → I s') :
    ∀ (s : State ι) a s', I s.streamer → step C wellFormed s a = some s' → I s'.streamer := by
  intro s a s' hi hst
  exact exec_invariant hi next _ _ (streamer_step hst)

end Rtc

end WebrtcStreamer
