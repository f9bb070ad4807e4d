import WebrtcStreamer.WebSocket.Transport

/-!
# `WebSocket.Assembly` — what comes in is what the stream means

`Assembly` puts frames together to messages, and nothing else: it sends nothing, counts no pings and does not
fail. `meaning` is what it makes of all the bytes of a stream, read at once.

## Contents
- **The stream.** `meaning` and how it grows with the stream.
- **One frame after the other.** `Kept`, for what leaves the messages alone; `Follows`, and `handleAll_follows`
  for the frames of a chunk, also where one of them makes the transport throw.
- **One call.** `Reads`, what a transport keeps of the bytes it has read, and `Tracks`; `incoming_tracks`.
- **Runs.** `received_eq_meaning`: the messages depend on the bytes only, not on how TCP cuts them, on what is sent
  meanwhile or on how often the connection is idle.
-/

namespace WebrtcStreamer

namespace WebSocket

open Incremental Transition

/-! ## The stream -/

/-- The messages that have been put together, and the beginning of the next one. -/
structure Assembly where
  opcode : Opcode
  fragments : Bytes
  closed : Bool
  messages : List Message

def Assembly.new (opcode : Opcode) : Assembly where
  opcode := opcode
  fragments := []
  closed := false
  messages := []

/-- Behind a close frame, frames mean nothing. -/
def Assembly.frame (max : ℕ) (a : Assembly) (f : Frame) : Assembly :=
  if a.closed then a
  else
    match f.opcode with
    | .textFrame | .binaryFrame =>
        let unfinished := if a.fragments = [] then [] else [{ type := Session.typeOf a.opcode, data := a.fragments }]
        let data := f.payload.take max
        { a with
          opcode := f.opcode
          fragments := if f.fin then [] else data
          messages := a.messages ++ unfinished ++
            if f.fin then [{ type := Session.typeOf f.opcode, data := data }] else [] }
    | .continuation =>
        let data := (a.fragments ++ f.payload).take max
        { a with
          fragments := if f.fin then [] else data
          messages := a.messages ++ if f.fin then [{ type := Session.typeOf a.opcode, data := data }] else [] }
    | .close => { a with closed := true }
    | .ping | .pong | .unknown _ => a

def Assembly.frames (max : ℕ) (a : Assembly) (fs : List Frame) : Assembly := fs.foldl (Assembly.frame max) a

variable (c : Config)

/-- What `parseHttpResponse` or `parseHttpRequest` makes of the beginning of the stream. -/
def parseHandshake (h : WsHandshake) (bytes : Bytes) : Except WsError (Option (WsHandshake × ℕ)) :=
  if c.isClient then parseHttpResponse c.sha1 h bytes else parseHttpRequest h bytes

/-- What is behind the handshake, if it is complete. -/
def behindHandshake (h : WsHandshake) (bytes : Bytes) : Option Bytes :=
  match parseHandshake c h bytes with
  | .ok (some (_, n)) => some (bytes.drop n)
  | .ok none | .error _ => none

/-- What the bytes of a stream mean. -/
def meaning (h : WsHandshake) (opcode : Opcode) (bytes : Bytes) : Assembly :=
  match behindHandshake c h bytes with
  | some stream => (Assembly.new opcode).frames c.maxMessageSize ((frames c.maxMessageSize).feed .empty stream).1
  | none => .new opcode

variable {c}

theorem frame_closed {max : ℕ} {a : Assembly} (h : a.closed = true) (f : Frame) : a.frame max f = a := by
  rw [Assembly.frame, if_pos h]

theorem frames_closed {max : ℕ} {a : Assembly} (h : a.closed = true) (fs : List Frame) : a.frames max fs = a := by
  induction fs with
  | nil => rfl
  | cons f fs ih =>
      show (a.frame max f).frames max fs = a
      rw [frame_closed h]
      exact ih

theorem frame_grows (max : ℕ) (a : Assembly) (f : Frame) : a.messages <+: (a.frame max f).messages := by
  unfold Assembly.frame
  split
  · exact List.prefix_rfl
  · split
    · exact (List.prefix_append _ _).trans (List.prefix_append _ _)
    · exact (List.prefix_append _ _).trans (List.prefix_append _ _)
    · exact List.prefix_append _ _
    · exact List.prefix_rfl
    · exact List.prefix_rfl
    · exact List.prefix_rfl
    · exact List.prefix_rfl

theorem frames_grow (max : ℕ) (a : Assembly) (fs : List Frame) : a.messages <+: (a.frames max fs).messages := by
  induction fs generalizing a with
  | nil => exact List.prefix_rfl
  | cons f fs ih => exact (frame_grows max a f).trans (ih (a.frame max f))

theorem parseHandshake_append {h h' : WsHandshake} {bytes : Bytes} {n : ℕ}
    (hparse : parseHandshake c h bytes = .ok (some (h', n))) (more : Bytes) :
    parseHandshake c h (bytes ++ more) = .ok (some (h', n)) := by
  unfold parseHandshake at hparse ⊢
  split at hparse
  · rw [if_pos ‹_›]
    exact parseHttpResponse_append hparse more
  · rw [if_neg ‹_›]
    exact parseHttpRequest_append hparse more

theorem parseHandshake_length {h h' : WsHandshake} {bytes : Bytes} {n : ℕ}
    (hparse : parseHandshake c h bytes = .ok (some (h', n))) : n ≤ bytes.length := by
  unfold parseHandshake at hparse
  split at hparse
  · obtain ⟨-, lines, hlines, -⟩ := parseHttpResponse_eq_some.mp hparse
    exact (parseHttpLines_length hlines).2
  · obtain ⟨-, lines, hlines, -⟩ := parseHttpRequest_eq_some.mp hparse
    exact (parseHttpLines_length hlines).2

theorem behindHandshake_append {h : WsHandshake} {bytes stream : Bytes}
    (hbehind : behindHandshake c h bytes = some stream)
    (more : Bytes) : behindHandshake c h (bytes ++ more) = some (stream ++ more) := by
  unfold behindHandshake at hbehind ⊢
  split at hbehind
  · rw [parseHandshake_append ‹_› more]
    obtain rfl := Option.some.inj hbehind
    exact congrArg some (List.drop_append_of_le_length (parseHandshake_length ‹_›))
  · cases hbehind
  · cases hbehind

/-- **The meaning grows with the stream.** -/
theorem meaning_append {h : WsHandshake} {opcode : Opcode} {bytes stream : Bytes}
    (hbehind : behindHandshake c h bytes = some stream) (more : Bytes) :
    meaning c h opcode (bytes ++ more) =
      (meaning c h opcode bytes).frames c.maxMessageSize
        ((frames c.maxMessageSize).feed ((frames c.maxMessageSize).feed .empty stream).2 more).1 := by
  rw [meaning, meaning, hbehind, behindHandshake_append hbehind]
  simp only [Parser.feed_append]
  exact List.foldl_append

theorem meaning_grows (h : WsHandshake) (opcode : Opcode) (bytes more : Bytes) :
    (meaning c h opcode bytes).messages <+: (meaning c h opcode (bytes ++ more)).messages := by
  cases hbehind : behindHandshake c h bytes with
  | none =>
      rw [meaning, hbehind]
      exact List.nil_prefix
  | some stream =>
      rw [meaning_append hbehind]
      exact frames_grow _ _ _

/-- Behind a close frame, the stream means nothing more. -/
theorem meaning_closed {h : WsHandshake} {opcode : Opcode} {bytes : Bytes}
    (hclosed : (meaning c h opcode bytes).closed = true) (more : Bytes) :
    meaning c h opcode (bytes ++ more) = meaning c h opcode bytes := by
  cases hbehind : behindHandshake c h bytes with
  | none =>
      rw [meaning, hbehind] at hclosed
      cases hclosed
  | some stream => rw [meaning_append hbehind, frames_closed hclosed]

/-! ## What leaves the messages alone -/

/-- `s'` has the messages of `s`, and what it has of the next one; it may be closed. -/
structure Kept (s s' : Session) : Prop where
  received : s'.received = s.received
  closeReceived : s'.closeReceived = s.closeReceived
  mPartial : s'.mPartial = s.mPartial
  mPartialOpcode : s'.mPartialOpcode = s.mPartialOpcode
  mHandshake : s'.mHandshake = s.mHandshake
  closed : s.webSocket = .closed → s'.webSocket = .closed
  state : s'.webSocket ≠ .closed → s'.state = s.state
  ends : s'.state = s.state ∨ s'.state = .disconnected ∨ s'.state = .failed

namespace Kept

theorem refl (s : Session) : Kept s s where
  received := rfl
  closeReceived := rfl
  mPartial := rfl
  mPartialOpcode := rfl
  mHandshake := rfl
  closed := id
  state _ := rfl
  ends := .inl rfl

theorem trans {s s' s'' : Session} (h : Kept s s') (h' : Kept s' s'') : Kept s s'' where
  received := h'.received.trans h.received
  closeReceived := h'.closeReceived.trans h.closeReceived
  mPartial := h'.mPartial.trans h.mPartial
  mPartialOpcode := h'.mPartialOpcode.trans h.mPartialOpcode
  mHandshake := h'.mHandshake.trans h.mHandshake
  closed hclosed := h'.closed (h.closed hclosed)
  state hopen := (h'.state hopen).trans (h.state fun hclosed => hopen (h'.closed hclosed))
  ends := by
    rcases h'.ends with hsame | hend
    · rw [hsame]
      exact h.ends
    · exact .inr hend

theorem sendFrame (s : Session) (f : Frame) : Kept s (s.sendFrame c f).1 := by
  unfold Session.sendFrame
  exact ⟨rfl, rfl, rfl, rfl, rfl, id, fun _ => rfl, .inl rfl⟩

/-- Where the connection ends, so does the `WebSocket`. -/
theorem changeState {s : Session} {state : TransportState} (h : state = .failed ∨ state = .disconnected) :
    Kept s (s.changeState state) := by
  unfold Session.changeState
  split
  · exact refl s
  · rcases h with rfl | rfl
    · exact ⟨rfl, rfl, rfl, rfl, rfl, fun _ => rfl, fun hopen => absurd rfl hopen, .inr (.inr rfl)⟩
    · exact ⟨rfl, rfl, rfl, rfl, rfl, fun _ => rfl, fun hopen => absurd rfl hopen, .inr (.inl rfl)⟩

theorem close (s : Session) : Kept s (s.close c) := by
  have hsent : Kept s { s with mCloseSent := true } := ⟨rfl, rfl, rfl, rfl, rfl, id, fun _ => rfl, .inl rfl⟩
  unfold Session.close
  split
  · exact refl s
  · have hframe := hsent.trans (sendFrame (c := c) { s with mCloseSent := true } ⟨.close, [], true, c.isClient⟩)
    split
    · rw [‹Session.sendFrame _ _ _ = _›] at hframe
      exact hframe
    · rw [‹Session.sendFrame _ _ _ = _›] at hframe
      exact hframe.trans (changeState (.inr rfl))

theorem closeWebSocket (s : Session) : Kept s (s.closeWebSocket c) := by
  have hclosing : s.webSocket ≠ .closed → Kept s { s with webSocket := .closing } := fun hopen =>
    ⟨rfl, rfl, rfl, rfl, rfl, fun hclosed => absurd hclosed hopen, fun _ => rfl, .inl rfl⟩
  unfold Session.closeWebSocket
  split
  · exact (hclosing (by rw [‹s.webSocket = _›]; decide)).trans (close _)
  · exact (hclosing (by rw [‹s.webSocket = _›]; decide)).trans (close _)
  · exact refl s
  · exact refl s

theorem remoteClose (s : Session) : Kept s (s.remoteClose c) :=
  (closeWebSocket s).trans ⟨rfl, rfl, rfl, rfl, rfl, fun _ => rfl, fun hopen => absurd rfl hopen, .inl rfl⟩

theorem addOutstandingPing (s : Session) : Kept s (s.addOutstandingPing c) := by
  have hcount : Kept s { s with mOutstandingPings := s.mOutstandingPings + 1 } :=
    ⟨rfl, rfl, rfl, rfl, rfl, id, fun _ => rfl, .inl rfl⟩
  simp only [Session.addOutstandingPing]
  split
  · exact hcount.trans (changeState (.inl rfl))
  · exact hcount

theorem ping (s : Session) : Kept s (s.ping c).1 := by
  have hframe := sendFrame (c := c) s ⟨.ping, [0, 0, 0, 0], true, c.isClient⟩
  unfold Session.ping
  split
  · rw [‹Session.sendFrame _ _ _ = _›] at hframe
    exact hframe.trans (addOutstandingPing _)
  · rw [‹Session.sendFrame _ _ _ = _›] at hframe
    exact hframe

theorem fail (s : Session) : Kept s s.fail := by
  unfold Session.fail
  split
  · exact changeState (.inr rfl)
  · exact changeState (.inl rfl)

theorem send (s : Session) (m : Message) : Kept s (s.send c m).1 := by
  unfold Session.send
  split
  · exact refl s
  · exact sendFrame _ _

end Kept

/-- A `WebSocket` that is not closed has a transport that connects or is connected. -/
def Session.Running (s : Session) : Prop :=
  s.webSocket ≠ .closed → s.state = .connecting ∨ s.state = .connected

theorem Kept.running {s s' : Session} (h : Kept s s') (hrunning : s.Running) : s'.Running := by
  intro hopen
  rw [h.state hopen]
  exact hrunning fun hclosed => hopen (h.closed hclosed)

theorem fail_closed {s : Session} (h : s.Running) : s.fail.webSocket = .closed := by
  by_cases hclosed : s.webSocket = .closed
  · exact (Kept.fail s).closed hclosed
  · rcases h hclosed with hstate | hstate
    · rw [Session.fail, if_neg (by rw [hstate]; decide), Session.changeState, if_neg (by rw [hstate]; decide)]
    · rw [Session.fail, if_pos hstate, Session.changeState, if_neg (by rw [hstate]; decide)]

/-! ## One frame after the other -/

def Session.assembly (s : Session) : Assembly where
  opcode := s.mPartialOpcode
  fragments := s.mPartial
  closed := false
  messages := s.received

/-- The session has received what has been put together: all of it while it is open, and where it is the other
    side that has closed it, else a beginning. -/
structure Follows (a : Assembly) (s : Session) : Prop where
  live : s.webSocket ≠ .closed → s.assembly = a ∧ s.closeReceived = false
  received : s.received <+: a.messages
  complete : s.closeReceived = true → s.received = a.messages ∧ a.closed = true

theorem Follows.kept {a : Assembly} {s s' : Session} (h : Follows a s) (hkept : Kept s s') : Follows a s' where
  live hopen := by
    obtain ⟨hassembly, hclose⟩ := h.live fun hclosed => hopen (hkept.closed hclosed)
    refine ⟨?_, hkept.closeReceived.trans hclose⟩
    rw [← hassembly, Session.assembly, Session.assembly, hkept.mPartialOpcode, hkept.mPartial, hkept.received]
  received := by
    rw [hkept.received]
    exact h.received
  complete hclose := by
    rw [hkept.received]
    exact h.complete (hkept.closeReceived ▸ hclose)

/-- Once it is closed, frames may come or not. -/
theorem Follows.frames {a : Assembly} {s : Session} (h : Follows a s) (hclosed : s.webSocket = .closed) (max : ℕ)
    (fs : List Frame) : Follows (a.frames max fs) s where
  live hopen := absurd hclosed hopen
  received := h.received.trans (frames_grow max a fs)
  complete hclose := by
    obtain ⟨hreceived, hended⟩ := h.complete hclose
    rw [frames_closed hended]
    exact ⟨hreceived, hended⟩

/-- A frame with data: while the `WebSocket` is open, the session does as the assembly does. -/
theorem recvFrame_data (s : Session) {f : Frame}
    (h : f.opcode = .textFrame ∨ f.opcode = .binaryFrame ∨ f.opcode = .continuation) :
    ∃ opcode fragments received,
      s.recvFrame c f =
        ({ s with mPartialOpcode := opcode, mPartial := fragments, received := received }, true) ∧
      (s.webSocket ≠ .closed →
        { opcode := opcode, fragments := fragments, closed := false, messages := received } =
          s.assembly.frame c.maxMessageSize f) ∧
      (s.webSocket = .closed → received = s.received) := by
  by_cases hclosed : s.webSocket = .closed
  · rcases h with hop | hop | hop
    · by_cases hpart : s.mPartial = [] <;> cases hfin : f.fin <;>
        simp [Session.recvFrame, hop, hpart, hfin, Session.recv, hclosed]
    · by_cases hpart : s.mPartial = [] <;> cases hfin : f.fin <;>
        simp [Session.recvFrame, hop, hpart, hfin, Session.recv, hclosed]
    · cases hfin : f.fin <;> simp [Session.recvFrame, hop, hfin, Session.recv, hclosed]
  · rcases h with hop | hop | hop
    · by_cases hpart : s.mPartial = [] <;> cases hfin : f.fin <;>
        simp [Session.recvFrame, Assembly.frame, hop, hpart, hfin, Session.recv, hclosed, Session.assembly]
    · by_cases hpart : s.mPartial = [] <;> cases hfin : f.fin <;>
        simp [Session.recvFrame, Assembly.frame, hop, hpart, hfin, Session.recv, hclosed, Session.assembly]
    · cases hfin : f.fin <;>
        simp [Session.recvFrame, Assembly.frame, hop, hfin, Session.recv, hclosed, Session.assembly]

theorem Follows.data {a : Assembly} {s : Session} (h : Follows a s) {f : Frame}
    (hop : f.opcode = .textFrame ∨ f.opcode = .binaryFrame ∨ f.opcode = .continuation) :
    Follows (a.frame c.maxMessageSize f) (s.recvFrame c f).1 := by
  obtain ⟨opcode, fragments, received, heq, hlive, hdead⟩ := recvFrame_data (c := c) s hop
  rw [heq]
  by_cases hclosed : s.webSocket = .closed
  · have hframe := h.frames hclosed c.maxMessageSize [f]
    rw [hdead hclosed]
    exact ⟨fun hopen => absurd hclosed hopen, hframe.received, hframe.complete⟩
  · obtain ⟨hassembly, hclose⟩ := h.live hclosed
    have hframe := hlive hclosed
    rw [hassembly] at hframe
    refine ⟨fun _ => ⟨hframe, hclose⟩, ?_, fun hended => ?_⟩
    · rw [← hframe]
    · have htrue : s.closeReceived = true := hended
      rw [hclose] at htrue
      cases htrue

/-- The other frames that do not close the connection. -/
theorem Kept.recvFrame (s : Session) {f : Frame}
    (hop : f.opcode = .ping ∨ f.opcode = .pong ∨ ∃ code, f.opcode = .unknown code) :
    Kept s (s.recvFrame c f).1 := by
  unfold Session.recvFrame
  rcases hop with hop | hop | ⟨code, hop⟩
  · rw [hop]
    exact Kept.sendFrame _ _
  · rw [hop]
    exact ⟨rfl, rfl, rfl, rfl, rfl, id, fun _ => rfl, .inl rfl⟩
  · rw [hop]
    exact Kept.close _

theorem frame_control {max : ℕ} (a : Assembly) {f : Frame}
    (hop : f.opcode = .ping ∨ f.opcode = .pong ∨ ∃ code, f.opcode = .unknown code) : a.frame max f = a := by
  unfold Assembly.frame
  split
  · rfl
  · rcases hop with hop | hop | ⟨code, hop⟩ <;> rw [hop]

/-- Behind a close frame, the `WebSocket` is closed. -/
theorem recvFrame_close {s : Session} (hrunning : s.Running) {f : Frame} (hop : f.opcode = .close) :
    (s.recvFrame c f).1.webSocket = .closed ∧ (s.recvFrame c f).1.received = s.received ∧
      (s.recvFrame c f).1.closeReceived = (s.closeReceived || decide (s.webSocket ≠ .closed)) := by
  obtain ⟨s', hs'⟩ : ∃ s' : Session,
      s' = { s with closeReceived := s.closeReceived || decide (s.webSocket ≠ .closed) } :=
    ⟨_, rfl⟩
  have hrunning' : s'.Running := by
    rw [hs']
    exact hrunning
  have heq : (s.recvFrame c f).1 = (s'.close c).changeState .disconnected := by
    rw [hs', Session.recvFrame, hop]
  have hclose := Kept.close (c := c) s'
  have hend : Kept s' ((s'.close c).changeState .disconnected) := hclose.trans (Kept.changeState (.inr rfl))
  rw [heq]
  refine ⟨?_, by rw [hend.received, hs'], by rw [hend.closeReceived, hs']⟩
  -- A change of the state closes the `WebSocket`; where the state does not change, it is closed already.
  by_cases hclosed : (s'.close c).webSocket = .closed
  · exact (Kept.changeState (.inr rfl)).closed hclosed
  · have hstate := hclose.running hrunning' hclosed
    rw [Session.changeState, if_neg]
    intro hdisconnected
    rw [hdisconnected] at hstate
    rcases hstate with hstate | hstate <;> cases hstate

theorem Follows.close {a : Assembly} {s : Session} (h : Follows a s) (hrunning : s.Running) {f : Frame}
    (hop : f.opcode = .close) : Follows (a.frame c.maxMessageSize f) (s.recvFrame c f).1 := by
  obtain ⟨hclosed, hreceived, hclose⟩ := recvFrame_close (c := c) hrunning hop
  have hmessages : (a.frame c.maxMessageSize f).messages = a.messages ∧
      (a.frame c.maxMessageSize f).closed = true := by
    unfold Assembly.frame
    split
    · exact ⟨rfl, ‹_›⟩
    · rw [hop]
      exact ⟨rfl, rfl⟩
  refine ⟨fun hopen => absurd hclosed hopen, ?_, fun hended => ⟨?_, hmessages.2⟩⟩
  · rw [hreceived, hmessages.1]
    exact h.received
  · rw [hreceived, hmessages.1]
    -- A second close frame says nothing about what has been received before the first.
    by_cases hopen : s.webSocket = .closed
    · rw [hclose] at hended
      simp only [hopen, ne_eq, not_true_eq_false, decide_false, Bool.or_false] at hended
      exact (h.complete hended).1
    · exact congrArg Assembly.messages (h.live hopen).1

/-- The connection goes on as it is, or ends. -/
def Ends (s s' : Session) : Prop := s'.state = s.state ∨ s'.state = .disconnected ∨ s'.state = .failed

theorem Ends.trans {s s' s'' : Session} (h : Ends s s') (h' : Ends s' s'') : Ends s s'' := by
  rcases h' with hsame | hend
  · rw [Ends, hsame]
    exact h
  · exact .inr hend

/-- What a frame leaves of the connection. -/
theorem recvFrame_ends (s : Session) (f : Frame) :
    Ends s (s.recvFrame c f).1 ∧ (s.Running → (s.recvFrame c f).1.Running) := by
  have hdata : f.opcode = .textFrame ∨ f.opcode = .binaryFrame ∨ f.opcode = .continuation →
      Ends s (s.recvFrame c f).1 ∧ (s.Running → (s.recvFrame c f).1.Running) := by
    intro hop
    obtain ⟨opcode, fragments, received, heq, -, -⟩ := recvFrame_data (c := c) s hop
    rw [heq]
    exact ⟨.inl rfl, id⟩
  have hcontrol : f.opcode = .ping ∨ f.opcode = .pong ∨ (∃ code, f.opcode = .unknown code) →
      Ends s (s.recvFrame c f).1 ∧ (s.Running → (s.recvFrame c f).1.Running) := fun hop =>
    ⟨(Kept.recvFrame s hop).ends, (Kept.recvFrame s hop).running⟩
  cases hop : f.opcode with
  | textFrame => exact hdata (.inl hop)
  | binaryFrame => exact hdata (.inr (.inl hop))
  | continuation => exact hdata (.inr (.inr hop))
  | ping => exact hcontrol (.inl hop)
  | pong => exact hcontrol (.inr (.inl hop))
  | unknown code => exact hcontrol (.inr (.inr ⟨code, hop⟩))
  | close =>
      refine ⟨?_, fun hrunning hopen => absurd (recvFrame_close hrunning hop).1 hopen⟩
      have hclose := Kept.close (c := c) { s with closeReceived := s.closeReceived || decide (s.webSocket ≠ .closed) }
      simp only [Session.recvFrame, hop]
      exact (hclose.trans (Kept.changeState (.inr rfl))).ends

/-- **One frame.** The session follows the assembly. -/
theorem recvFrame_follows {a : Assembly} {s : Session} (h : Follows a s) (hrunning : s.Running) (f : Frame) :
    Follows (a.frame c.maxMessageSize f) (s.recvFrame c f).1 := by
  have hcontrol : f.opcode = .ping ∨ f.opcode = .pong ∨ (∃ code, f.opcode = .unknown code) →
      Follows (a.frame c.maxMessageSize f) (s.recvFrame c f).1 := by
    intro hop
    rw [frame_control a hop]
    exact h.kept (Kept.recvFrame s hop)
  cases hop : f.opcode with
  | textFrame => exact h.data (.inl hop)
  | binaryFrame => exact h.data (.inr (.inl hop))
  | continuation => exact h.data (.inr (.inr hop))
  | ping => exact hcontrol (.inl hop)
  | pong => exact hcontrol (.inr (.inl hop))
  | unknown code => exact hcontrol (.inr (.inr ⟨code, hop⟩))
  | close => exact h.close hrunning hop

/-- Where the exception is caught. -/
def settle (r : Session × Bool) : Session := if r.2 then r.1 else r.1.fail

theorem fail_state (s : Session) : s.fail.state = .disconnected ∨ s.fail.state = .failed := by
  unfold Session.fail Session.changeState
  split
  · split
    · exact .inl ‹_›
    · exact .inl rfl
  · split
    · exact .inr ‹_›
    · exact .inr rfl

/-- **The frames of a chunk**, up to one that makes the transport throw. -/
theorem handleAll_follows {a : Assembly} {s : Session} (h : Follows a s) (hrunning : s.Running) (fs : List Frame) :
    Follows (a.frames c.maxMessageSize fs) (settle (Parser.handleAll (Session.recvFrame c) s fs)) := by
  induction fs generalizing a s with
  | nil => exact h
  | cons f fs ih =>
      have hframe := recvFrame_follows (c := c) h hrunning f
      have hrunning' := (recvFrame_ends (c := c) s f).2 hrunning
      rw [Parser.handleAll]
      rcases hrecv : s.recvFrame c f with ⟨s', ok⟩
      rw [hrecv] at hframe hrunning'
      cases ok with
      | true => exact ih hframe hrunning'
      -- The exception closes the `WebSocket`, so the frames behind this one do not matter.
      | false => exact (hframe.kept (Kept.fail s')).frames (fail_closed hrunning') _ fs

theorem handleAll_ends (s : Session) (fs : List Frame) :
    Ends s (settle (Parser.handleAll (Session.recvFrame c) s fs)) ∧
      (s.Running → (settle (Parser.handleAll (Session.recvFrame c) s fs)).Running) ∧
      ((settle (Parser.handleAll (Session.recvFrame c) s fs)).state = .connected →
        (Parser.handleAll (Session.recvFrame c) s fs).2 = true) := by
  induction fs generalizing s with
  | nil => exact ⟨.inl rfl, id, fun _ => rfl⟩
  | cons f fs ih =>
      obtain ⟨hends, hrunning⟩ := recvFrame_ends (c := c) s f
      rw [Parser.handleAll]
      rcases hrecv : s.recvFrame c f with ⟨s', ok⟩
      rw [hrecv] at hends hrunning
      cases ok with
      | true =>
          obtain ⟨hends', hrunning', hok⟩ := ih s'
          exact ⟨hends.trans hends', fun h => hrunning' (hrunning h), hok⟩
      | false =>
          refine ⟨.inr (fail_state s'), fun h hopen => absurd (fail_closed (hrunning h)) hopen, fun hconnected => ?_⟩
          -- Behind an exception, nothing is connected.
          have hstate : s'.fail.state = .connected := hconnected
          rcases fail_state s' with hfail | hfail <;> rw [hfail] at hstate <;> cases hstate

/-! ## One call -/

/-- The frames of a chunk, in the terms of the parser. -/
theorem frames_eq {t : WsTransport} {p : Pending UInt8} {chunk : Bytes} (h : t.input = p.insert chunk) :
    (t.frames c).session =
        settle (Parser.handleAll (Session.recvFrame c) t.session ((frames c.maxMessageSize).feed p chunk).1) ∧
      ((Parser.handleAll (Session.recvFrame c) t.session ((frames c.maxMessageSize).feed p chunk).1).2 = true →
        (t.frames c).input = ((frames c.maxMessageSize).feed p chunk).2) := by
  simp only [WsTransport.frames, Parser.feed, h]
  by_cases hzero : (p.insert chunk).discard.ignored = 0
  · rw [if_pos hzero, if_pos hzero]
    have hfst := Parser.drive_fst (P := frames c.maxMessageSize) (Session.recvFrame c)
      ((p.insert chunk).discard.buffer.length + 1) t.session (p.insert chunk).discard.buffer
    have hsnd : ((frames c.maxMessageSize).drive (Session.recvFrame c)
        ((p.insert chunk).discard.buffer.length + 1) t.session (p.insert chunk).discard.buffer).1.2 = true →
        ((frames c.maxMessageSize).drive (Session.recvFrame c)
          ((p.insert chunk).discard.buffer.length + 1) t.session (p.insert chunk).discard.buffer).2 =
            ((frames c.maxMessageSize).drain ((p.insert chunk).discard.buffer.length + 1)
              (p.insert chunk).discard.buffer).2 := Parser.drive_snd
    rw [← hfst]
    rcases hdrive : (frames c.maxMessageSize).drive (Session.recvFrame c)
      ((p.insert chunk).discard.buffer.length + 1) t.session (p.insert chunk).discard.buffer with ⟨⟨s, ok⟩, input⟩
    rw [hdrive] at hsnd
    cases ok with
    | true => exact ⟨rfl, fun _ => hsnd rfl⟩
    | false => exact ⟨rfl, fun hok => by cases hok⟩
  -- All of the chunk belongs to a frame that has been truncated.
  · rw [if_neg hzero, if_neg hzero]
    exact ⟨rfl, fun _ => rfl⟩

/-- Once it is closed, the stream may go on. -/
theorem Follows.more {h : WsHandshake} {opcode : Opcode} {bytes : Bytes} {s : Session}
    (hfollows : Follows (meaning c h opcode bytes) s) (hclosed : s.webSocket = .closed) (more : Bytes) :
    Follows (meaning c h opcode (bytes ++ more)) s where
  live hopen := absurd hclosed hopen
  received := hfollows.received.trans (meaning_grows h opcode bytes more)
  complete hclose := by
    obtain ⟨hreceived, hended⟩ := hfollows.complete hclose
    rw [meaning_closed hended]
    exact ⟨hreceived, hended⟩

/-- The TCP transport, once the handshake is complete: a server has answered. -/
def answered (c : Config) (h : WsHandshake) (tcp : TcpTransport) : TcpTransport :=
  if c.isClient then tcp else (tcp.send (generateHttpResponse c.sha1 h)).1

/-- What the handshake does, once there is a beginning of the stream. -/
theorem handshake_cases {t : WsTransport} (hstate : t.session.state = .connecting) :
    match parseHandshake c t.session.mHandshake t.input.buffer with
    | .error e => t.handshake c = (t, some e)
    | .ok none => t.handshake c = (t, none)
    | .ok (some (h, n)) =>
        ∃ h',
          t.handshake c =
              ({ session := { t.session with mHandshake := h', tcp := answered c h t.session.tcp }.changeState .connected
                 input := { t.input with buffer := t.input.buffer.drop n } }, none) ∨
            ∃ e, t.handshake c =
              ({ t with session := { t.session with mHandshake := h', tcp := answered c h t.session.tcp } }, some e) := by
  have hconnecting : ¬ t.session.state ≠ .connecting := not_not_intro hstate
  simp only [WsTransport.handshake, parseHandshake, if_neg hconnecting, answered]
  cases hclient : c.isClient with
  | true =>
      simp only [if_true]
      rcases parseHttpResponse c.sha1 t.session.mHandshake t.input.buffer with e | _ | ⟨h, n⟩
      · rfl
      · rfl
      · exact ⟨t.session.mHandshake, .inl rfl⟩
  | false =>
      simp only [Bool.false_eq_true, if_false]
      rcases parseHttpRequest t.session.mHandshake t.input.buffer with e | _ | ⟨h, n⟩
      · rfl
      · rfl
      · rcases hsend : t.session.tcp.send (generateHttpResponse c.sha1 h) with ⟨tcp, _ | _⟩
        · exact ⟨h, .inr ⟨.runtimeError (str "Connection is not open"), by simp only [hsend]⟩⟩
        · exact ⟨h, .inl (by simp only [hsend])⟩

variable {h : WsHandshake} {opcode : Opcode} {bytes : Bytes} {t : WsTransport}

/-- A transport that has read these bytes waits for the end of the handshake, or has read all frames. -/
structure Reads (c : Config) (h : WsHandshake) (bytes : Bytes) (t : WsTransport) : Prop where
  connecting : t.session.state = .connecting →
    t.session.mHandshake = h ∧ t.input = ⟨bytes, 0⟩ ∧ parseHandshake c h bytes = .ok none
  connected : t.session.state = .connected →
    ∃ stream, behindHandshake c h bytes = some stream ∧
      t.input = ((frames c.maxMessageSize).feed .empty stream).2

theorem Reads.ended (hstate : t.session.state = .disconnected ∨ t.session.state = .failed) : Reads c h bytes t where
  connecting heq := by rcases hstate with hstate | hstate <;> rw [hstate] at heq <;> cases heq
  connected heq := by rcases hstate with hstate | hstate <;> rw [hstate] at heq <;> cases heq

/-- A transport that has read these bytes, and what they mean. -/
structure Tracks (c : Config) (h : WsHandshake) (opcode : Opcode) (bytes : Bytes) (t : WsTransport) : Prop where
  reads : Reads c h bytes t
  running : t.session.Running
  follows : Follows (meaning c h opcode bytes) t.session

theorem Tracks.kept (ht : Tracks c h opcode bytes t) {t' : WsTransport} (hkept : Kept t.session t'.session)
    (hinput : t'.input = t.input) : Tracks c h opcode bytes t' := by
  refine ⟨?_, hkept.running ht.running, ht.follows.kept hkept⟩
  rcases hkept.ends with hsame | hend
  · refine ⟨fun hconnecting => ?_, fun hconnected => ?_⟩
    · rw [hkept.mHandshake, hinput]
      exact ht.reads.connecting (hsame ▸ hconnecting)
    · rw [hinput]
      exact ht.reads.connected (hsame ▸ hconnected)
  -- Once the connection has ended, nothing is asked of the input.
  · exact .ended hend

theorem idle_kept (t : WsTransport) : Kept t.session (t.idle c).session ∧ (t.idle c).input = t.input := by
  have hping := Kept.ping (c := c) t.session
  unfold WsTransport.idle
  rcases hsent : t.session.ping c with ⟨s, _ | _⟩
  · rw [hsent] at hping
    exact ⟨hping.trans (Kept.fail s), rfl⟩
  · rw [hsent] at hping
    exact ⟨hping, rfl⟩

/-- The frames behind a part of the stream that has been read. -/
theorem frames_tracks {stream chunk : Bytes} (hrunning : t.session.Running) (hstate : t.session.state = .connected)
    (hbehind : behindHandshake c h bytes = some (stream ++ chunk))
    (hinput : t.input = ((frames c.maxMessageSize).feed .empty stream).2.insert chunk) {a : Assembly}
    (hfollows : Follows a t.session)
    (hmeaning : meaning c h opcode bytes =
      a.frames c.maxMessageSize
        ((frames c.maxMessageSize).feed ((frames c.maxMessageSize).feed .empty stream).2 chunk).1) :
    Tracks c h opcode bytes (t.frames c) := by
  obtain ⟨hsession, hrest⟩ := frames_eq (c := c) hinput
  have hhandled := handleAll_follows (c := c) hfollows hrunning
    ((frames c.maxMessageSize).feed ((frames c.maxMessageSize).feed .empty stream).2 chunk).1
  obtain ⟨hends, hruns, hok⟩ := handleAll_ends (c := c) t.session
    ((frames c.maxMessageSize).feed ((frames c.maxMessageSize).feed .empty stream).2 chunk).1
  rw [← hsession] at hhandled hends hruns hok
  refine ⟨⟨fun hconnecting => ?_, fun hconnected => ?_⟩, hruns hrunning, hmeaning ▸ hhandled⟩
  · rw [Ends, hconnecting, hstate] at hends
    rcases hends with hend | hend | hend <;> cases hend
  · refine ⟨_, hbehind, ?_⟩
    rw [hrest (hok hconnected), Parser.feed_append]

theorem meaning_of_wait (hparse : parseHandshake c h bytes = .ok none) : meaning c h opcode bytes = .new opcode := by
  rw [meaning, behindHandshake, hparse]

/-- The session, once the handshake is complete. -/
theorem changeState_connected {s : Session} (hstate : s.state = .connecting) :
    s.changeState .connected =
      { s with state := .connected, webSocket := if s.webSocket = .connecting then .opened else s.webSocket } := by
  rw [Session.changeState, if_neg (by rw [hstate]; decide)]
  dsimp only
  split <;> rfl

theorem Follows.connect {a : Assembly} {s : Session} (hfollows : Follows a s) (hstate : s.state = .connecting) :
    Follows a (s.changeState .connected) := by
  rw [changeState_connected hstate]
  refine ⟨fun hopen => hfollows.live fun hclosed => hopen ?_, hfollows.received, hfollows.complete⟩
  rw [hclosed]
  rfl

/-- The handshake has failed. -/
theorem caught_tracks (hfollows : Follows (meaning c h opcode bytes) t.session) (hrunning : t.session.Running)
    (chunk : Bytes) (e : WsError) : Tracks c h opcode (bytes ++ chunk) (t.caught e) := by
  have hfail : ∀ s : Session, s.Running → Follows (meaning c h opcode bytes) s →
      ∀ input, Tracks c h opcode (bytes ++ chunk) ⟨s.fail, input⟩ := by
    intro s hrun hs input
    have hclosed := fail_closed hrun
    exact ⟨.ended (fail_state s), fun hopen => absurd hclosed hopen, (hs.kept (Kept.fail s)).more hclosed chunk⟩
  cases e with
  | requestError what responseCode =>
      exact hfail { t.session with tcp := (t.session.tcp.send (generateHttpError responseCode)).1 } hrunning
        ⟨hfollows.live, hfollows.received, hfollows.complete⟩ t.input
  | error what => exact hfail _ hrunning hfollows _
  | runtimeError what => exact hfail _ hrunning hfollows _

/-- The handshake goes on, is completed or fails. -/
theorem connecting_tracks (ht : Tracks c h opcode bytes t) (hstate : t.session.state = .connecting) {chunk : Bytes}
    (hne : chunk ≠ []) : Tracks c h opcode (bytes ++ chunk) (t.incoming c (some chunk)) := by
  obtain ⟨hsame, hinput, hparse⟩ := ht.reads.connecting hstate
  have hbuffer : t.input.insert chunk = ⟨bytes ++ chunk, 0⟩ := by
    rw [hinput]
    rfl
  have hcases := handshake_cases (c := c) (t := { t with input := t.input.insert chunk }) hstate
  simp only [hbuffer, hsame] at hcases
  rw [WsTransport.incoming, if_neg fun h => h.1 hstate]
  simp only [hbuffer]
  split at hcases
  -- The handshake is refused.
  · rw [hcases]
    exact caught_tracks (t := { t with input := ⟨bytes ++ chunk, 0⟩ }) ht.follows ht.running chunk _
  -- Something is missing: all that has come in stays in the buffer.
  · have hwait : parseHandshake c h (bytes ++ chunk) = .ok none := ‹_›
    have hmeaning : meaning c h opcode (bytes ++ chunk) = meaning c h opcode bytes := by
      rw [meaning_of_wait hwait, meaning_of_wait hparse]
    have hread : ¬ t.session.state = .connected := by
      rw [hstate]
      decide
    rw [hcases]
    simp only [WsTransport.read, if_pos hread, ne_eq]
    exact ⟨⟨fun _ => ⟨hsame, rfl, hwait⟩, fun hconnected => absurd hconnected hread⟩, ht.running,
      hmeaning ▸ ht.follows⟩
  · rename_i h' n hdone
    obtain ⟨h'', heq | ⟨e, heq⟩⟩ := hcases
    -- It is complete, and what is behind it is read for frames in the same call.
    · have hfollows : Follows (.new opcode)
          { t.session with mHandshake := h'', tcp := answered c h' t.session.tcp } := by
        have hfollows := ht.follows
        rw [meaning_of_wait hparse] at hfollows
        exact ⟨hfollows.live, hfollows.received, hfollows.complete⟩
      have hconnect := hfollows.connect hstate
      have hconnected := changeState_connected
        (s := { t.session with mHandshake := h'', tcp := answered c h' t.session.tcp }) hstate
      have hbehind : behindHandshake c h (bytes ++ chunk) = some ([] ++ (bytes ++ chunk).drop n) := by
        rw [behindHandshake, hdone]
        rfl
      rw [hconnected] at hconnect heq
      rw [heq]
      simp only [WsTransport.read, ne_eq, not_true_eq_false, if_false, if_neg hne]
      refine frames_tracks (fun _ => .inr rfl) rfl hbehind rfl hconnect ?_
      rw [meaning, hbehind]
      rfl
    -- It is complete, but a server cannot answer any more.
    · rw [heq]
      exact caught_tracks
        (t := { session := { t.session with mHandshake := h'', tcp := answered c h' t.session.tcp }
                input := ⟨bytes ++ chunk, 0⟩ })
        ⟨ht.follows.live, ht.follows.received, ht.follows.complete⟩ ht.running chunk e

/-- Behind the handshake, a chunk is read for its frames. -/
theorem incoming_connected (hstate : t.session.state = .connected) {chunk : Bytes} (hne : chunk ≠ []) :
    t.incoming c (some chunk) = WsTransport.frames c { t with input := t.input.insert chunk } := by
  have hconnecting : t.session.state ≠ .connecting := by
    rw [hstate]
    decide
  rw [WsTransport.incoming, if_neg fun h => h.2 hstate]
  simp only [WsTransport.handshake, if_pos hconnecting, WsTransport.read, if_neg (not_not_intro hstate), if_neg hne]

/-- **A chunk that comes in** is read with what has come in before. -/
theorem incoming_tracks (ht : Tracks c h opcode bytes t) {chunk : Bytes} (hne : chunk ≠ []) :
    Tracks c h opcode (bytes ++ chunk) (t.incoming c (some chunk)) := by
  by_cases hconnecting : t.session.state = .connecting
  · exact connecting_tracks ht hconnecting hne
  · by_cases hconnected : t.session.state = .connected
    · obtain ⟨stream, hbehind, hinput⟩ := ht.reads.connected hconnected
      rw [incoming_connected hconnected hne]
      exact frames_tracks (t := { t with input := t.input.insert chunk }) ht.running hconnected
        (behindHandshake_append hbehind chunk) (congrArg (fun p => Pending.insert p chunk) hinput) ht.follows
        (meaning_append hbehind chunk)
    -- The connection has ended: the chunk is dropped, and the messages that it may hold with it.
    · have hclosed : t.session.webSocket = .closed := by
        by_contra hopen
        rcases ht.running hopen with hstate | hstate
        · exact hconnecting hstate
        · exact hconnected hstate
      rw [WsTransport.incoming, if_pos ⟨hconnecting, hconnected⟩]
      exact ⟨⟨fun hstate => absurd hstate hconnecting, fun hstate => absurd hstate hconnected⟩, ht.running,
        ht.follows.more hclosed chunk⟩

/-- Where the connection is idle, a ping is sent, if anything. -/
theorem incoming_nil (hreads : Reads c h bytes t) :
    t.incoming c (some []) = t ∨ t.session.state = .connected ∧ t.incoming c (some []) = t.idle c := by
  have hinsert : t.input.insert [] = t.input := by rw [Pending.insert, List.append_nil]
  by_cases hconnecting : t.session.state = .connecting
  · obtain ⟨hsame, hinput, hparse⟩ := hreads.connecting hconnecting
    -- The handshake is tried again, with nothing more in the buffer.
    have hcases := handshake_cases (c := c) hconnecting
    rw [hsame, hinput, hparse] at hcases
    have hread : ¬ t.session.state = .connected := by
      rw [hconnecting]
      decide
    rw [WsTransport.incoming, if_neg fun h => h.1 hconnecting]
    simp only [hinsert, hcases, WsTransport.read, if_pos hread, ne_eq]
    exact .inl trivial
  · by_cases hconnected : t.session.state = .connected
    · rw [WsTransport.incoming, if_neg fun h => h.2 hconnected]
      simp only [hinsert, WsTransport.handshake, if_pos hconnecting, WsTransport.read,
        if_neg (not_not_intro hconnected), if_true]
      exact .inr ⟨hconnected, trivial⟩
    · rw [WsTransport.incoming, if_pos ⟨hconnecting, hconnected⟩]
      exact .inl rfl

theorem loseTcp_kept (s : Session) : Kept s (WsTransport.loseTcp s) := by
  simp only [WsTransport.loseTcp]
  split
  · exact ⟨rfl, rfl, rfl, rfl, rfl, fun _ => rfl, fun hopen => absurd rfl hopen, .inl rfl⟩
  · exact ⟨rfl, rfl, rfl, rfl, rfl, id, fun _ => rfl, .inl rfl⟩

theorem lose_kept (t : WsTransport) : Kept t.session (t.lose c).session ∧ (t.lose c).input = t.input := by
  have htcp := loseTcp_kept t.session
  unfold WsTransport.lose WsTransport.incoming
  split
  · exact ⟨htcp, rfl⟩
  · exact ⟨htcp.trans (Kept.fail _), rfl⟩

theorem some_of_ite {α : Type} {p : Prop} [Decidable p] {x y : α} (h : (if p then some x else none) = some y) :
    p ∧ x = y := by
  obtain ⟨hp, hsome⟩ := Option.ite_none_right_eq_some.mp h
  exact ⟨hp, Option.some.inj hsome⟩

/-- What a step does that reads nothing: it leaves the input alone, and the messages. -/
theorem step_kept {t' : WsTransport} {a : WsTransport.Action} (hstep : WsTransport.step c t a = some t')
    (hreceive : ∀ chunk, a ≠ .receive chunk) (hidle : a ≠ .idle) :
    Kept t.session t'.session ∧ t'.input = t.input := by
  have htcp : ∀ tcp, Kept t.session { t.session with tcp := tcp } := fun tcp =>
    ⟨rfl, rfl, rfl, rfl, rfl, id, fun _ => rfl, .inl rfl⟩
  cases a with
  | receive chunk => exact absurd rfl (hreceive chunk)
  | idle => exact absurd rfl hidle
  | lost =>
      obtain ⟨-, rfl⟩ := some_of_ite hstep
      exact lose_kept t
  | writable =>
      rw [WsTransport.step] at hstep
      split at hstep
      · cases hstep
      · split at hstep
        · obtain rfl := Option.some.inj hstep
          exact ⟨htcp _, rfl⟩
        · obtain rfl := Option.some.inj hstep
          rename_i tcp _
          obtain ⟨hlose, hinput⟩ := lose_kept (c := c) { t with session := { t.session with tcp := tcp } }
          exact ⟨(htcp tcp).trans hlose, hinput⟩
  | socket attempts =>
      obtain rfl := Option.some.inj hstep
      exact ⟨htcp _, rfl⟩
  | send message =>
      obtain rfl := Option.some.inj hstep
      exact ⟨Kept.send _ _, rfl⟩
  | close =>
      obtain rfl := Option.some.inj hstep
      exact ⟨Kept.closeWebSocket _, rfl⟩
  | forceClose =>
      obtain rfl := Option.some.inj hstep
      exact ⟨Kept.remoteClose _, rfl⟩
  | stop =>
      obtain ⟨-, rfl⟩ := some_of_ite hstep
      exact ⟨Kept.close _, rfl⟩
  | closeTimeout =>
      obtain ⟨-, rfl⟩ := some_of_ite hstep
      exact ⟨Kept.changeState (.inr rfl), rfl⟩

/-! ## Runs -/

/-- The bytes that a step brings. -/
def fed (_ : WsTransport) : WsTransport.Action → Bytes
  | .receive chunk => chunk
  | _ => []

theorem step_tracks {t' : WsTransport} {a : WsTransport.Action} (ht : Tracks c h opcode bytes t)
    (hstep : WsTransport.step c t a = some t') : Tracks c h opcode (bytes ++ fed t a) t' := by
  by_cases hreceive : ∃ chunk, a = .receive chunk
  · obtain ⟨chunk, rfl⟩ := hreceive
    obtain ⟨⟨-, hne⟩, rfl⟩ := some_of_ite hstep
    exact incoming_tracks ht hne.1
  · have hfed : fed t a = [] := by
      cases a with
      | receive chunk => exact absurd ⟨chunk, rfl⟩ hreceive
      | _ => rfl
    rw [hfed, List.append_nil]
    by_cases hidle : a = .idle
    · obtain rfl := hidle
      obtain ⟨-, rfl⟩ := some_of_ite hstep
      rcases incoming_nil ht.reads with heq | ⟨-, heq⟩
      · rw [heq]
        exact ht
      · rw [heq]
        exact ht.kept (idle_kept t).1 (idle_kept t).2
    · obtain ⟨hkept, hinput⟩ := step_kept hstep (fun chunk heq => hreceive ⟨chunk, heq⟩) hidle
      exact ht.kept hkept hinput

theorem parseHandshake_nil (h : WsHandshake) : parseHandshake c h [] = .ok none := by
  unfold parseHandshake
  split <;> rfl

/-- A transport that has just been started connects; a client has sent its request. -/
theorem start_eq (h : WsHandshake) (opcode : Opcode) (random : Bytes) (tcp : TcpTransport) :
    ∃ webSocket,
      WsTransport.start c h opcode random tcp =
        { session :=
            { state := .connecting
              mHandshake := if c.isClient then (generateHttpRequest h random).1 else h
              mPartial := []
              mPartialOpcode := opcode
              mOutstandingPings := 0
              mCloseSent := false
              drawn := 0
              tcp := if c.isClient then (tcp.send (generateHttpRequest h random).2).1 else tcp
              webSocket := webSocket
              received := []
              closeReceived := false }
          input := .empty } := by
  unfold WsTransport.start
  cases c.isClient with
  | true =>
      rcases hsend : tcp.send (generateHttpRequest h random).2 with ⟨tcp', _ | _⟩
      · exact ⟨.closed, by simp [hsend]⟩
      · exact ⟨.connecting, by simp [hsend]⟩
  | false => exact ⟨.connecting, rfl⟩

theorem start_tracks (h : WsHandshake) (opcode : Opcode) (random : Bytes) (tcp : TcpTransport) :
    Tracks c (WsTransport.start c h opcode random tcp).session.mHandshake opcode []
      (WsTransport.start c h opcode random tcp) := by
  obtain ⟨webSocket, heq⟩ := start_eq (c := c) h opcode random tcp
  have hmeaning : ∀ h, meaning c h opcode [] = .new opcode := fun h => meaning_of_wait (parseHandshake_nil h)
  rw [heq]
  refine ⟨⟨fun _ => ⟨rfl, rfl, parseHandshake_nil _⟩, fun hconnected => by cases hconnected⟩, fun _ => .inl rfl,
    fun _ => ⟨(hmeaning _).symm, rfl⟩, List.nil_prefix, fun htrue => by cases htrue⟩

theorem exec_tracks {random : Bytes} {tcp : TcpTransport} {as : List WsTransport.Action}
    (hrun : exec (WsTransport.step c) (WsTransport.start c h opcode random tcp) as = some t) :
    Tracks c (WsTransport.start c h opcode random tcp).session.mHandshake opcode
      (trace (WsTransport.step c) fed (WsTransport.start c h opcode random tcp) as) t := by
  refine exec_induction (motive := fun as t => Tracks c _ opcode (trace _ fed _ as) t)
    (start_tracks h opcode random tcp) ?_ as t hrun
  intro as t a t' hexec ih hstep
  rw [trace_snoc hexec]
  exact step_tracks ih hstep

/-- **What is received is what the stream means.** In every run (no frame of which has a length that wraps round:
    such a chunk is no step), the messages are those that all the bytes mean when
    they are read at once, while the `WebSocket` is open and where it is the other side that has closed it, and else
    a beginning of these: it does not matter how TCP cuts the stream, what is sent meanwhile and how often the
    connection is idle. -/
theorem received_eq_meaning {random : Bytes} {tcp : TcpTransport} {as : List WsTransport.Action}
    (hrun : exec (WsTransport.step c) (WsTransport.start c h opcode random tcp) as = some t) :
    t.session.received <+:
        (meaning c (WsTransport.start c h opcode random tcp).session.mHandshake opcode
          (trace (WsTransport.step c) fed (WsTransport.start c h opcode random tcp) as)).messages ∧
      (t.session.webSocket ≠ .closed ∨ t.session.closeReceived = true →
        t.session.received =
          (meaning c (WsTransport.start c h opcode random tcp).session.mHandshake opcode
            (trace (WsTransport.step c) fed (WsTransport.start c h opcode random tcp) as)).messages) := by
  have htracks := exec_tracks hrun
  refine ⟨htracks.follows.received, ?_⟩
  rintro (hopen | hclose)
  · exact congrArg Assembly.messages (htracks.follows.live hopen).1
  · exact (htracks.follows.complete hclose).1

/-- A client that takes messages of up to four bytes, with the hash that goes with its key. -/
def fourBytes : Config where
  maxMessageSize := 4
  maxOutstandingPings := 10
  isClient := true
  sha1 := fun _ =>
    [0xB3, 0x7A, 0x4F, 0x2C, 0xC0, 0x62, 0x4F, 0x16, 0x90, 0xF6, 0x46, 0x06, 0xCF, 0x38, 0x59, 0x45, 0xB2, 0xBE,
      0xC4, 0xEA]
  keys := fun _ => ![1, 2, 3, 4]

def connecting : WsTransport :=
  .start fourBytes { mHost := str "localhost", mPath := str "/", mProtocols := [], mKey := [] } .continuation
    (str "the sample nonce") .opened

/-- `Hello` in two fragments, with a ping between them; TCP cuts each of them. -/
def hello : List WsTransport.Action :=
  [.receive (generateHttpResponse fourBytes.sha1 connecting.session.mHandshake ++ [0x01, 0x03, 0x48]),
    .send ⟨.string, str "a"⟩, .receive [0x65, 0x6C, 0x89, 0x00, 0x80], .idle, .receive [0x02, 0x6C, 0x6F]]

theorem received_eq_meaning_hello :
    ∃ t, exec (WsTransport.step fourBytes) connecting hello = some t ∧
      t.session.received = [⟨.string, str "Hell"⟩] := by
  have hrun : ((exec (WsTransport.step fourBytes) connecting hello).any fun t => t.session.webSocket == .opened) =
      true := by
    decide +kernel
  obtain ⟨t, ht, hopen⟩ := (Option.any_eq_true _ _).mp hrun
  refine ⟨t, ht, ((received_eq_meaning ht).2 (.inl ?_)).trans ?_⟩
  · rw [eq_of_beq hopen]
    decide
  · decide +kernel

end WebSocket

end WebrtcStreamer
