import WebrtcStreamer.Rtc.Objects
import WebrtcStreamer.WebSocket.Frame
import WebrtcStreamer.WebSocket.Handshake
import WebrtcStreamer.WebSocket.TcpTransport

/-!
# `WebSocket.Transport` — a WebSocket over TCP (libdatachannel's `wstransport.cpp`, `impl/websocket.cpp`)

A `WsTransport` between the TCP transport below and the `WebSocket` that owns it. What comes in over TCP goes
through `incoming`: first the handshake, then frames, which `recvFrame` puts together to messages. What is sent
goes through `sendFrame`. A `WebSocket` that is closed takes its callbacks away from the transport, so nothing
is received any more.

Connections go to the server directly and are not secured. A call that throws is a pair with `false`; what it
has done before it throws is done.

A frame header may give a length of up to 2^64 - 1, and with the last fourteen of these the length of the whole
frame, which `parseFrame` returns as a `size_t`, wraps round: the source takes the frame for incomplete, or goes on
inside its header. No transport can get so much; a chunk with such a header is no step here (`WsTransport.fits`).
-/

namespace WebrtcStreamer

namespace WebSocket

open Incremental

/-! ## The objects -/

inductive MessageType
  | string
  | binary
deriving DecidableEq

structure Message where
  type : MessageType
  data : Bytes
deriving DecidableEq

/-- What does not change: the configuration, with its defaults, the side of the connection, the hash of the
    handshake, and the random keys in the order in which they are drawn. -/
structure Config where
  maxMessageSize : ℕ
  maxOutstandingPings : ℕ
  isClient : Bool
  sha1 : Bytes → Bytes
  keys : ℕ → MaskingKey

/-- The transport without its input, and the `WebSocket` with what it has received. -/
structure Session where
  state : TransportState
  mHandshake : WsHandshake
  mPartial : Bytes
  mPartialOpcode : Opcode
  mOutstandingPings : ℕ
  mCloseSent : Bool
  /-- How many keys have been drawn. -/
  drawn : ℕ
  tcp : TcpTransport
  webSocket : Rtc.WebSocket
  received : List Message
  /-- The frame that has closed the `WebSocket` was the other side's: no step reads this. -/
  closeReceived : Bool

/-- A transport; its input is `mBuffer` and `mIgnoreLength`. -/
structure WsTransport where
  session : Session
  input : Pending UInt8

variable (c : Config)

/-! ## Sending and closing -/

namespace Session

def sendFrame (s : Session) (frame : Frame) : Session × Bool :=
  match s.tcp.send (frame.toBytes (c.keys s.drawn)) with
  | (tcp, sent) => ({ s with tcp := tcp, drawn := if frame.mask then s.drawn + 1 else s.drawn }, sent.isSome)

/-- `changeState`, with the callback of the `WebSocket`. Where the transport is lost, `remoteClose` finds nothing
    to send. -/
def changeState (s : Session) (state : TransportState) : Session :=
  if s.state = state then s
  else
    let s := { s with state := state }
    match state with
    | .connected => if s.webSocket = .connecting then { s with webSocket := .opened } else s
    | .failed | .disconnected => { s with webSocket := .closed }
    | .connecting | .completed => s

/-- `WsTransport::close`. -/
def close (s : Session) : Session :=
  if s.state ≠ .connected ∨ s.mCloseSent = true then s
  else
    match sendFrame c { s with mCloseSent := true } ⟨.close, [], true, c.isClient⟩ with
    | (s, true) => s
    | (s, false) => s.changeState .disconnected

/-- `WebSocket::close`. -/
def closeWebSocket (s : Session) : Session :=
  match s.webSocket with
  | .connecting | .opened => close c { s with webSocket := .closing }
  | .closing | .closed => s

/-- `WebSocket::remoteClose`. -/
def remoteClose (s : Session) : Session := { s.closeWebSocket c with webSocket := .closed }

/-- `WebSocket::send`. -/
def send (s : Session) (message : Message) : Session × Bool :=
  if s.webSocket ≠ .opened ∨ c.maxMessageSize < message.data.length ∨ s.state ≠ .connected then (s, false)
  else
    s.sendFrame c
      { opcode := if message.type = .string then .textFrame else .binaryFrame
        payload := message.data
        fin := true
        mask := c.isClient }

/-! ## Frames -/

/-- `recv`, which passes the message on to `WebSocket::incoming`. -/
def recv (s : Session) (message : Message) : Session :=
  if s.webSocket = .closed then s else { s with received := s.received ++ [message] }

def typeOf (opcode : Opcode) : MessageType := if opcode = .textFrame then .string else .binary

def recvFrame (s : Session) (frame : Frame) : Session × Bool :=
  match frame.opcode with
  | .textFrame | .binaryFrame =>
      let payload := frame.payload.take c.maxMessageSize
      let s :=
        if s.mPartial = [] then s
        else { s.recv { type := typeOf s.mPartialOpcode, data := s.mPartial } with mPartial := [] }
      let s := { s with mPartialOpcode := frame.opcode }
      if frame.fin then (s.recv { type := typeOf frame.opcode, data := payload }, true)
      else ({ s with mPartial := s.mPartial ++ payload }, true)
  | .continuation =>
      let s := { s with mPartial := (s.mPartial ++ frame.payload).take c.maxMessageSize }
      if frame.fin then
        ({ s.recv { type := typeOf s.mPartialOpcode, data := s.mPartial } with mPartial := [] }, true)
      else (s, true)
  | .ping => s.sendFrame c ⟨.pong, frame.payload, true, c.isClient⟩
  | .pong => ({ s with mOutstandingPings := 0 }, true)
  | .close =>
      let s : Session := { s with closeReceived := s.closeReceived || decide (s.webSocket ≠ .closed) }
      ((s.close c).changeState .disconnected, true)
  | .unknown _ => (s.close c, true)

def addOutstandingPing (s : Session) : Session :=
  let s := { s with mOutstandingPings := s.mOutstandingPings + 1 }
  if 0 < c.maxOutstandingPings ∧ c.maxOutstandingPings < s.mOutstandingPings then s.changeState .failed else s

/-- The connection is idle. -/
def ping (s : Session) : Session × Bool :=
  match s.sendFrame c ⟨.ping, [0, 0, 0, 0], true, c.isClient⟩ with
  | (s, true) => (s.addOutstandingPing c, true)
  | (s, false) => (s, false)

/-- The end of `incoming`, behind an exception or where there is no message. The callback that
    `recv(nullptr)` would call has been taken away by the change of the state. -/
def fail (s : Session) : Session :=
  if s.state = .connected then s.changeState .disconnected else s.changeState .failed

end Session

/-! ## Input -/

namespace WsTransport

/-- What `incoming` does while it connects; the result is `none`, or what is thrown. -/
def handshake (t : WsTransport) : WsTransport × Option WsError :=
  if t.session.state ≠ .connecting then (t, none)
  else if c.isClient then
    match parseHttpResponse c.sha1 t.session.mHandshake t.input.buffer with
    | .error e => (t, some e)
    | .ok none => (t, none)
    | .ok (some (_, n)) =>
        ({ session := t.session.changeState .connected
           input := { t.input with buffer := t.input.buffer.drop n } }, none)
  else
    match parseHttpRequest t.session.mHandshake t.input.buffer with
    | .error e => (t, some e)
    | .ok none => (t, none)
    | .ok (some (h, n)) =>
        match t.session.tcp.send (generateHttpResponse c.sha1 h) with
        | (tcp, some _) =>
            ({ session := { t.session with mHandshake := h, tcp := tcp }.changeState .connected
               input := { t.input with buffer := t.input.buffer.drop n } }, none)
        | (tcp, none) =>
            ({ t with session := { t.session with mHandshake := h, tcp := tcp } },
              some (.runtimeError (str "Connection is not open")))

/-- An exception is caught: a request that is refused is answered. -/
def caught (t : WsTransport) : WsError → WsTransport
  | .requestError _ responseCode =>
      let (tcp, _) := t.session.tcp.send (generateHttpError responseCode)
      { t with session := { t.session with tcp := tcp }.fail }
  | .error _ | .runtimeError _ => { t with session := t.session.fail }

/-- What `incoming` does with the frames that are there. -/
def frames (t : WsTransport) : WsTransport :=
  let input := t.input.discard
  if input.ignored = 0 then
    match (WebSocket.frames c.maxMessageSize).drive (Session.recvFrame c) (input.buffer.length + 1) t.session
      input.buffer with
    | ((s, true), input) => { session := s, input := input }
    | ((s, false), input) => { session := s.fail, input := input }
  else { t with input := input }

/-- What `incoming` does where the TCP connection is idle. -/
def idle (t : WsTransport) : WsTransport :=
  match t.session.ping c with
  | (s, true) => { t with session := s }
  | (s, false) => { t with session := s.fail }

/-- What `incoming` does behind the handshake. -/
def read (t : WsTransport) (message : Bytes) : WsTransport :=
  if t.session.state ≠ .connected then t else if message = [] then t.idle c else t.frames c

def incoming (t : WsTransport) (message : Option Bytes) : WsTransport :=
  if t.session.state ≠ .connecting ∧ t.session.state ≠ .connected then t
  else
    match message with
    | none => { t with session := t.session.fail }
    | some message =>
        match handshake c { t with input := t.input.insert message } with
        | (t, some e) => t.caught e
        | (t, none) => t.read c message

end WsTransport

/-! ## The streamer's socket -/

/-- What the streamer's model knows of the transports. -/
def Session.connection (s : Session) : Rtc.Connection where
  wsTransport := s.state
  tcpTransport := s.tcp.state
  broken := s.tcp.broken

/-- **`WebSocket::send` as the streamer's model has it.** It throws exactly where `Rtc.sendThrows` says so of the
    connection at the end of the call, for the socket may fail in the middle of it. -/
theorem Session.send_threw_iff {c : Config} (hmax : c.maxMessageSize = Rtc.maxMessageSize) (s : Session)
    (message : Message) :
    (s.send c message).2 = false ↔
      Rtc.sendThrows s.webSocket (s.send c message).1.connection message.data = true := by
  unfold Session.send
  rw [hmax]
  split
  -- It throws before it comes to the transports below.
  · rename_i hclosed
    simp only [true_iff, Rtc.sendThrows, Rtc.Connection.sendThrows, Session.connection, Bool.or_eq_true,
      bne_iff_ne, decide_eq_true_eq]
    rcases hclosed with hopen | hlong | hstate
    · exact .inl (.inl hopen)
    · exact .inl (.inr hlong)
    · exact .inr (.inl (.inl hstate))
  · rename_i hopen
    simp only [not_or, ne_eq, not_not, not_lt] at hopen
    obtain ⟨hws, hlen, hstate⟩ := hopen
    obtain ⟨frame, hframe⟩ : ∃ frame : Frame, frame =
        { opcode := if message.type = .string then .textFrame else .binaryFrame
          payload := message.data
          fin := true
          mask := c.isClient } := ⟨_, rfl⟩
    rw [← hframe]
    have hne := frame.toBytes_ne_nil (c.keys s.drawn)
    obtain ⟨hthrew, hkept⟩ := TcpTransport.send_eq_none_iff (t := s.tcp) hne
    rcases hsend : s.tcp.send (frame.toBytes (c.keys s.drawn)) with ⟨tcp, sent⟩
    rw [hsend] at hthrew hkept
    have hsent : (s.sendFrame c frame).2 = false ↔ s.tcp.state ≠ .connected ∨ tcp.broken = true := by
      rw [← hthrew]
      simp only [Session.sendFrame, hsend]
      cases sent <;> simp
    have hconnection : (s.sendFrame c frame).1.connection = ⟨s.state, s.tcp.state, tcp.broken⟩ := by
      simp only [Session.sendFrame, hsend, Session.connection]
      exact congrArg (fun state => Rtc.Connection.mk s.state state tcp.broken) hkept
    rw [hsent, hconnection]
    simp [Rtc.sendThrows, Rtc.Connection.sendThrows, hws, hstate, Nat.not_lt.mpr hlen]

/-! ## Steps -/

namespace WsTransport

/-- `start`: a client sends its request. The first opcode is what `mPartialOpcode` holds before it is set. -/
def start (h : WsHandshake) (opcode : Opcode) (random : Bytes) (tcp : TcpTransport) : WsTransport :=
  let session : Session :=
    { state := .connecting, mHandshake := h, mPartial := [], mPartialOpcode := opcode, mOutstandingPings := 0,
      mCloseSent := false, drawn := 0, tcp := tcp, webSocket := .connecting, received := [], closeReceived := false }
  let session :=
    if c.isClient then
      let (h, request) := generateHttpRequest h random
      match tcp.send request with
      | (tcp, some _) => { session with mHandshake := h, tcp := tcp }
      -- The exception goes through `initWsTransport`.
      | (tcp, none) => { session with mHandshake := h, tcp := tcp, webSocket := .closed }
    else session
  { session := session, input := .empty }

/-- Of the frames that `incoming` reads with this chunk, none has a length that wraps round. -/
def fits (t : WsTransport) (chunk : Bytes) : Bool :=
  let (t, _) := handshake c { t with input := t.input.insert chunk }
  let input := t.input.discard
  decide (t.session.state ≠ .connected) ||
    (WebSocket.frames c.maxMessageSize).within (2 ^ 64) (input.buffer.length + 1) input.buffer

inductive Action
  /-- The socket can be read. -/
  | receive (chunk : Bytes)
  /-- The socket could not be read for some time. -/
  | idle
  /-- The TCP connection is closed or lost. -/
  | lost
  /-- The socket is polled to be writable. -/
  | writable
  /-- What the socket does next. -/
  | socket (attempts : List Attempt)
  | send (message : Message)
  | close
  | forceClose
  /-- The transports of a closed `WebSocket` are stopped. -/
  | stop
  /-- The other side has not answered a close frame for ten seconds. -/
  | closeTimeout
deriving DecidableEq

/-- The state of the TCP transport changes: this closes the `WebSocket` while it connects. -/
def loseTcp (s : Session) : Session :=
  let s := { s with tcp := { s.tcp with state := .disconnected } }
  if s.webSocket = .connecting then { s with webSocket := .closed } else s

/-- The end of `TcpTransport::process`. -/
def lose (t : WsTransport) : WsTransport := incoming c { t with session := loseTcp t.session } none

def step (t : WsTransport) : Action → Option WsTransport
  | .receive chunk =>
      if t.session.tcp.state = .connected ∧ chunk ≠ [] ∧ t.fits c chunk = true then
        some (t.incoming c (some chunk))
      else none
  | .idle => if t.session.tcp.state = .connected then some (t.incoming c (some [])) else none
  | .lost => if t.session.tcp.state = .connected then some (t.lose c) else none
  | .writable =>
      if t.session.tcp.state ≠ .connected then none
      else
        match t.session.tcp.trySendQueue with
        | (tcp, some _) => some { t with session := { t.session with tcp := tcp } }
        | (tcp, none) => some (lose c { t with session := { t.session with tcp := tcp } })
  | .socket attempts => some { t with session := { t.session with tcp := { t.session.tcp with socket := attempts } } }
  | .send message => some { t with session := (t.session.send c message).1 }
  | .close => some { t with session := t.session.closeWebSocket c }
  | .forceClose => some { t with session := t.session.remoteClose c }
  | .stop => if t.session.webSocket = .closed then some { t with session := t.session.close c } else none
  | .closeTimeout =>
      if t.session.mCloseSent then some { t with session := t.session.changeState .disconnected } else none

end WsTransport

end WebSocket

end WebrtcStreamer
