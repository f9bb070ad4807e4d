import WebrtcStreamer.WebSocket.Assembly

/-!
# `WebSocket.Bounds` — what is kept of the stream is bounded

Whatever the other side sends (but for a length that wraps round, `WsTransport.fits`), and however TCP cuts it: a
connected transport keeps less than a frame header and a frame, of a message that has begun it keeps no more than
`mMaxMessageSize` bytes, and no message is longer.
The handshake has no such bound.
-/

namespace WebrtcStreamer

namespace WebSocket

open Incremental Transition

variable {c : Config}

/-! ## Messages -/

structure Bounded (c : Config) (s : Session) : Prop where
  mPartial : s.mPartial.length ≤ c.maxMessageSize
  received : ∀ m ∈ s.received, m.data.length ≤ c.maxMessageSize

theorem Bounded.kept {s s' : Session} (h : Bounded c s) (hkept : Kept s s') : Bounded c s' where
  mPartial := by
    rw [hkept.mPartial]
    exact h.mPartial
  received := by
    rw [hkept.received]
    exact h.received

theorem recv_bounded {s : Session} (h : Bounded c s) {m : Message} (hm : m.data.length ≤ c.maxMessageSize) :
    Bounded c (s.recv m) := by
  unfold Session.recv
  split
  · exact h
  · refine ⟨h.mPartial, fun m' hmem => ?_⟩
    rcases List.mem_append.mp hmem with hmem | hmem
    · exact h.received m' hmem
    · rw [List.mem_singleton.mp hmem]
      exact hm

/-- A frame that begins a message. -/
theorem first_bounded {s : Session} (h : Bounded c s) {f : Frame}
    (hop : f.opcode = .textFrame ∨ f.opcode = .binaryFrame) :
    Bounded c (s.recvFrame c f).1 := by
  obtain ⟨s', hs', hnil, hbounded⟩ : ∃ s' : Session,
      s' = (if s.mPartial = [] then s
        else { s.recv { type := Session.typeOf s.mPartialOpcode, data := s.mPartial } with mPartial := [] }) ∧
      s'.mPartial = [] ∧ Bounded c s' := by
    refine ⟨_, rfl, ?_, ?_⟩
    · split
      · assumption
      · rfl
    · split
      · exact h
      · have hrecv := recv_bounded h (m := { type := Session.typeOf s.mPartialOpcode, data := s.mPartial }) h.mPartial
        exact ⟨Nat.zero_le _, hrecv.received⟩
  have htake : (f.payload.take c.maxMessageSize).length ≤ c.maxMessageSize := List.length_take_le _ _
  have hopcode : Bounded c { s' with mPartialOpcode := f.opcode } := ⟨hbounded.mPartial, hbounded.received⟩
  have heq : s.recvFrame c f =
      if f.fin then
        (Session.recv { s' with mPartialOpcode := f.opcode }
          { type := Session.typeOf f.opcode, data := f.payload.take c.maxMessageSize }, true)
      else ({ s' with mPartialOpcode := f.opcode, mPartial := s'.mPartial ++ f.payload.take c.maxMessageSize }, true) := by
    rw [hs', Session.recvFrame]
    rcases hop with hop | hop <;> rw [hop]
  rw [heq]
  split
  · exact recv_bounded hopcode htake
  -- What there was of an unfinished message has been passed on, so the new one begins with nothing.
  · refine ⟨?_, hbounded.received⟩
    rw [hnil, List.nil_append]
    exact htake

theorem recvFrame_bounded {s : Session} (h : Bounded c s) (f : Frame) : Bounded c (s.recvFrame c f).1 := by
  cases hop : f.opcode with
  | textFrame => exact first_bounded h (.inl hop)
  | binaryFrame => exact first_bounded h (.inr hop)
  | continuation =>
      have htake : ((s.mPartial ++ f.payload).take c.maxMessageSize).length ≤ c.maxMessageSize :=
        List.length_take_le _ _
      have hpart : Bounded c { s with mPartial := (s.mPartial ++ f.payload).take c.maxMessageSize } :=
        ⟨htake, h.received⟩
      simp only [Session.recvFrame, hop]
      split
      · have hrecv := recv_bounded hpart
          (m := { type := Session.typeOf s.mPartialOpcode, data := (s.mPartial ++ f.payload).take c.maxMessageSize }) htake
        exact ⟨Nat.zero_le _, hrecv.received⟩
      · exact hpart
  | ping => exact h.kept (Kept.recvFrame s (.inl hop))
  | pong => exact h.kept (Kept.recvFrame s (.inr (.inl hop)))
  | unknown code => exact h.kept (Kept.recvFrame s (.inr (.inr ⟨code, hop⟩)))
  | close =>
      have hclose := Kept.close (c := c) { s with closeReceived := s.closeReceived || decide (s.webSocket ≠ .closed) }
      have hend := hclose.trans (@Kept.changeState _ .disconnected (.inr rfl))
      have hflag : Bounded c { s with closeReceived := s.closeReceived || decide (s.webSocket ≠ .closed) } :=
        ⟨h.mPartial, h.received⟩
      simp only [Session.recvFrame, hop]
      exact hflag.kept hend

theorem handleAll_bounded {s : Session} (h : Bounded c s) (fs : List Frame) :
    Bounded c (settle (Parser.handleAll (Session.recvFrame c) s fs)) := by
  induction fs generalizing s with
  | nil => exact h
  | cons f fs ih =>
      have hframe := recvFrame_bounded h f
      rw [Parser.handleAll]
      rcases hrecv : s.recvFrame c f with ⟨s', ok⟩
      rw [hrecv] at hframe
      cases ok with
      | true => exact ih hframe
      | false => exact hframe.kept (Kept.fail s')

/-! ## Runs -/

theorem handshake_bounded {t : WsTransport} (hs : Bounded c t.session) : Bounded c (t.handshake c).1.session := by
  by_cases hstate : t.session.state = .connecting
  · have hcases := handshake_cases (c := c) hstate
    split at hcases
    · rw [hcases]
      exact hs
    · rw [hcases]
      exact hs
    · rename_i h n _
      obtain ⟨h', heq | ⟨e, heq⟩⟩ := hcases
      · have hconnected := changeState_connected
          (s := { t.session with mHandshake := h', tcp := answered c h t.session.tcp }) hstate
        rw [hconnected] at heq
        rw [heq]
        exact ⟨hs.mPartial, hs.received⟩
      · rw [heq]
        exact ⟨hs.mPartial, hs.received⟩
  · rw [WsTransport.handshake, if_pos hstate]
    exact hs

theorem caught_bounded {t : WsTransport} (h : Bounded c t.session) (e : WsError) : Bounded c (t.caught e).session := by
  have hfail : ∀ s, Bounded c s → Bounded c s.fail := fun s hs => hs.kept (Kept.fail s)
  cases e with
  | requestError what responseCode =>
      exact hfail { t.session with tcp := (t.session.tcp.send (generateHttpError responseCode)).1 }
        ⟨h.mPartial, h.received⟩
  | error what => exact hfail _ h
  | runtimeError what => exact hfail _ h

theorem read_bounded {t : WsTransport} (h : Bounded c t.session) (message : Bytes) :
    Bounded c (t.read c message).session := by
  have hinput : t.input = t.input.insert [] := by rw [Pending.insert, List.append_nil]
  unfold WsTransport.read
  split
  · exact h
  · split
    · exact h.kept (idle_kept t).1
    · rw [(frames_eq hinput).1]
      exact handleAll_bounded h _

theorem incoming_bounded {t : WsTransport} (h : Bounded c t.session) (message : Option Bytes) :
    Bounded c (t.incoming c message).session := by
  unfold WsTransport.incoming
  split
  · exact h
  · cases message with
    | none => exact h.kept (Kept.fail _)
    | some message =>
        have hhandshake := handshake_bounded (t := { t with input := t.input.insert message }) h
        rcases hrun : WsTransport.handshake c { t with input := t.input.insert message } with ⟨t', _ | e⟩
        · rw [hrun] at hhandshake
          simp only [hrun]
          exact read_bounded hhandshake message
        · rw [hrun] at hhandshake
          simp only [hrun]
          exact caught_bounded hhandshake e

theorem step_bounded {t t' : WsTransport} {a : WsTransport.Action} (h : Bounded c t.session)
    (hstep : WsTransport.step c t a = some t') : Bounded c t'.session := by
  by_cases hreceive : ∃ chunk, a = .receive chunk
  · obtain ⟨chunk, rfl⟩ := hreceive
    obtain ⟨-, rfl⟩ := some_of_ite hstep
    exact incoming_bounded h _
  · by_cases hidle : a = .idle
    · obtain rfl := hidle
      obtain ⟨-, rfl⟩ := some_of_ite hstep
      exact incoming_bounded h _
    · exact h.kept (step_kept hstep (fun chunk heq => hreceive ⟨chunk, heq⟩) hidle).1

theorem start_bounded (h : WsHandshake) (opcode : Opcode) (random : Bytes) (tcp : TcpTransport) :
    Bounded c (WsTransport.start c h opcode random tcp).session := by
  obtain ⟨webSocket, heq⟩ := start_eq (c := c) h opcode random tcp
  rw [heq]
  exact ⟨Nat.zero_le _, fun m hmem => by cases hmem⟩

/-- **What is kept is bounded.** In every run, whatever comes in whose length does not wrap round: a connected
    transport holds less than the longest header and frame, of a message that is not finished no more than the
    maximal size, and no message that is received is longer. -/
theorem input_bounded {h : WsHandshake} {opcode : Opcode} {random : Bytes} {tcp : TcpTransport}
    {as : List WsTransport.Action} {t : WsTransport}
    (hrun : exec (WsTransport.step c) (WsTransport.start c h opcode random tcp) as = some t) :
    (t.session.state = .connected → t.input.buffer.length < 14 + maxFrameLength c.maxMessageSize) ∧
      t.session.mPartial.length ≤ c.maxMessageSize ∧
      ∀ m ∈ t.session.received, m.data.length ≤ c.maxMessageSize := by
  have hbounded : Bounded c t.session := exec_invariant (I := fun t => Bounded c t.session)
    (start_bounded h opcode random tcp) (fun _ _ _ hI hstep => step_bounded hI hstep) as t hrun
  refine ⟨fun hconnected => ?_, hbounded.mPartial, hbounded.received⟩
  obtain ⟨stream, -, hinput⟩ := (exec_tracks hrun).reads.connected hconnected
  have hquiet := Parser.feed_quiet (P := frames c.maxMessageSize) .empty stream
  rw [← hinput] at hquiet
  exact hquiet.length_lt (Nat.lt_of_lt_of_le (by decide) (Nat.le_add_right 14 _)) fun _ => parseFrame_none

theorem input_bounded_hello :
    ∃ t, exec (WsTransport.step fourBytes) connecting hello = some t ∧ t.session.mPartial.length ≤ 4 ∧
      ∀ m ∈ t.session.received, m.data.length ≤ 4 := by
  have hrun : (exec (WsTransport.step fourBytes) connecting hello).isSome = true := by decide +kernel
  obtain ⟨t, ht⟩ := Option.isSome_iff_exists.mp hrun
  exact ⟨t, ht, (input_bounded ht).2⟩

end WebSocket

end WebrtcStreamer
