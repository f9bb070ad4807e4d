import WebrtcStreamer.Lib.Transition
import WebrtcStreamer.Media.Storage
import WebrtcStreamer.Media.Report

/-!
# `Media.Track` — a client's video track (libdatachannel's `impl/track.cpp`, `mediahandler.cpp`)

Two threads are in a track at once. The multimedia thread sends frames: the packetizer, the reporter and the
NACK responder see a frame's packets one after the other, and only then are the packets handed to the transport.
The thread of the peer connection brings the control messages and answers them from the responder's storage,
so that a packet may be sent again before it has been sent at all. Meanwhile the track is opened, and may be closed, its
handler taken away and its transport gone, each between any two steps of the others. SRTP may refuse to protect a
packet, for instance one that is too old for its replay window; `sendMedia` throws then, and whether it would is
a part of the state that changes at any time, too.
-/

namespace WebrtcStreamer

namespace Media

open RtcpNackResponder

/-! ## States -/

/-- What is handed to the transport, and why. -/
inductive Transmission
  | report (message : Message)
  | packet (message : Message)
  | answer (number : UInt16) (message : Message)
  | raw (message : Message)

/-- The multimedia thread in `Client::sendFrame`. -/
inductive Sender
  | idle
  /-- `isOpen()` was true. -/
  | checked (frame : Message)
  /-- In `Track::outgoing`, past the test of `mIsClosed`. -/
  | entered (frame : Message)
  /-- In the chain, at the reporter, which has counted the packets. -/
  | counted (packets : List Message) (timestamp : UInt32)
  /-- In the chain, at the NACK responder. -/
  | storing (todo packets : List Message)
  /-- Behind the chain. -/
  | sending (todo : List Message)
  /-- There was no handler. -/
  | raw (frame : Message)
  /-- An exception that nobody catches. -/
  | thrown

/-- The thread of the peer connection in `Track::incoming`. -/
inductive Responder
  | idle
  | getting (missing : List UInt16)
  | answering (number : UInt16) (packet : Message) (missing : List UInt16)

structure Track where
  config : RtpPacketizationConfig
  reporter : RtcpSrReporter
  storage : Storage
  isClosed : Bool
  /-- `mMediaHandler` is there. -/
  handler : Bool
  /-- `mDtlsSrtpTransport` is there. -/
  transport : Bool
  /-- `srtp_protect` and `srtp_protect_rtcp` return no error. -/
  protects : Bool
  sender : Sender
  responder : Responder
  wire : List Transmission
  /-- The frames that have come to the packetizer and the numbers that have been asked for: no step reads
      these. -/
  frames : List Message
  asked : List UInt16

namespace Track

/-- A track as the constructor of the client sets it up. -/
def new (config : RtpPacketizationConfig) : Track where
  config := config
  reporter := .new
  storage := .new defaultMaxSize
  isClosed := false
  handler := true
  transport := false
  protects := true
  sender := .idle
  responder := .idle
  wire := []
  frames := []
  asked := []

def isOpen (t : Track) : Bool := !t.isClosed && t.transport

end Track

/-! ## Steps -/

inductive TrackAction
  | sendFrame (frame : Message)
  | outgoing
  | handler
  | report (now : ℕ) (ntp : UInt64)
  | store
  | send
  | incoming (message : Message)
  | get
  | answer
  | opened
  | closed
  | resetHandler
  | disconnect
  | srtp (protects : Bool)

namespace Track

/-- `transportSend` and `sendMedia` return. -/
def sends (t : Track) : Bool := t.transport && t.protects

/-- `transportSend`, with `DtlsSrtpTransport::sendMedia`; `none` if it throws. -/
def transportSend (t : Track) (transmission : Transmission) : Option Track :=
  if t.sends then some { t with wire := t.wire ++ [transmission] } else none

/-- Through the packetizer and the loop of the reporter, which touch nothing that other threads see. -/
def packetize (t : Track) (frame : Message) : Option Track := do
  let (packets, config) ← RtpPacketizer.outgoing t.config [frame]
  let (reporter, timestamp) := RtcpSrReporter.count config.ssrc (t.reporter, 0) packets
  some { t with
    config := config
    reporter := reporter
    frames := t.frames ++ [frame]
    sender := .counted packets timestamp }

/-- The rest of `RtcpSrReporter::outgoing`. -/
def report (t : Track) (packets : List Message) (timestamp : UInt32) (now : ℕ) (ntp : UInt64) : Track :=
  if packets.isEmpty || !t.reporter.due now then { t with sender := .storing packets packets }
  else
    match t.reporter.getSenderReport t.config ntp timestamp with
    | none => { t with sender := .thrown }
    | some message =>
        match t.transportSend (.report message) with
        | none => { t with sender := .thrown }
        | some t =>
            { t with
              reporter := { t.reporter with lastReportedTimestamp := timestamp, lastReportTime := now }
              sender := .storing packets packets }

/-- A step of the multimedia thread within `sendFrame`. -/
def sendStep (t : Track) (a : TrackAction) : Option Track :=
  match t.sender, a with
  | .idle, .sendFrame frame => some (if t.isOpen then { t with sender := .checked frame } else t)
  | .checked frame, .outgoing =>
      some { t with sender := if t.isClosed then .thrown else .entered frame }
  | .entered frame, .handler => if t.handler then t.packetize frame else some { t with sender := .raw frame }
  | .counted packets timestamp, .report now ntp => some (t.report packets timestamp now ntp)
  | .storing (packet :: todo) packets, .store =>
      some { t with storage := t.storage.store packet, sender := .storing todo packets }
  | .storing [] packets, .store => some { t with sender := .sending packets }
  | .sending (packet :: todo), .send =>
      some (((t.transportSend (.packet packet)).map fun t => { t with sender := .sending todo }).getD
        { t with sender := .thrown })
  | .sending [], .send => some { t with sender := .idle }
  | .raw frame, .send =>
      some (((t.transportSend (.raw frame)).map fun t => { t with sender := .idle }).getD
        { t with sender := .thrown })
  | _, _ => none

/-- A step of the thread that brings a message; what its `transportSend` throws is caught. -/
def respondStep (t : Track) (a : TrackAction) : Option Track :=
  match t.responder, a with
  | .idle, .incoming message =>
      match t.handler, message.type with
      | true, .control =>
          (requests message.data).map fun missing =>
            { t with responder := .getting missing, asked := t.asked ++ missing }
      | _, _ => some t
  | .getting (number :: missing), .get =>
      some { t with
        responder :=
          match t.storage.get number with
          | none => .getting missing
          | some packet => .answering number packet missing }
  | .getting [], .get => some { t with responder := .idle }
  | .answering number packet missing, .answer =>
      some (((t.transportSend (.answer number packet)).map fun t =>
        { t with responder := .getting missing }).getD { t with responder := .idle })
  | _, _ => none

/-- What the rest of the peer connection does to the track. -/
def closeStep (t : Track) (a : TrackAction) : Option Track :=
  match a with
  | .opened => some { t with transport := true }
  | .closed => some { t with isClosed := true }
  | .resetHandler => if t.isClosed then some { t with handler := false } else none
  | .disconnect => some { t with transport := false }
  | .srtp protects => some { t with protects := protects }
  | _ => none

def step (t : Track) (a : TrackAction) : Option Track :=
  match a with
  | .sendFrame _ | .outgoing | .handler | .report _ _ | .store | .send => t.sendStep a
  | .incoming _ | .get | .answer => t.respondStep a
  | .opened | .closed | .resetHandler | .disconnect | .srtp _ => t.closeStep a

end Track

/-! ## What a step does -/

open Track

/-- The steps of the multimedia thread. -/
inductive Sent (t : Track) : TrackAction → Track → Prop
  | dropped (frame : Message) : t.sender = .idle → t.isOpen = false → Sent t (.sendFrame frame) t
  | checked (frame : Message) : t.sender = .idle → t.isOpen = true →
      Sent t (.sendFrame frame) { t with sender := .checked frame }
  | entered (frame : Message) : t.sender = .checked frame → t.isClosed = false →
      Sent t .outgoing { t with sender := .entered frame }
  | isClosed (frame : Message) : t.sender = .checked frame → t.isClosed = true →
      Sent t .outgoing { t with sender := .thrown }
  | packetized (frame : Message) (packets : List Message) (config : RtpPacketizationConfig) :
      t.sender = .entered frame → t.handler = true →
      RtpPacketizer.outgoing t.config [frame] = some (packets, config) →
      Sent t .handler { t with
        config := config
        reporter := (RtcpSrReporter.count config.ssrc (t.reporter, 0) packets).1
        frames := t.frames ++ [frame]
        sender := .counted packets (RtcpSrReporter.count config.ssrc (t.reporter, 0) packets).2 }
  | unhandled (frame : Message) : t.sender = .entered frame → t.handler = false →
      Sent t .handler { t with sender := .raw frame }
  | unreported (packets : List Message) (timestamp : UInt32) (now : ℕ) (ntp : UInt64) :
      t.sender = .counted packets timestamp →
      Sent t (.report now ntp) { t with sender := .storing packets packets }
  | reported (packets : List Message) (timestamp : UInt32) (now : ℕ) (ntp : UInt64) (message : Message) :
      t.sender = .counted packets timestamp → packets ≠ [] → t.sends = true →
      t.reporter.getSenderReport t.config ntp timestamp = some message →
      Sent t (.report now ntp) { t with
        wire := t.wire ++ [.report message]
        reporter := { t.reporter with lastReportedTimestamp := timestamp, lastReportTime := now }
        sender := .storing packets packets }
  | unreportable (packets : List Message) (timestamp : UInt32) (now : ℕ) (ntp : UInt64) :
      t.sender = .counted packets timestamp →
      t.sends = false ∨ t.reporter.getSenderReport t.config ntp timestamp = none →
      Sent t (.report now ntp) { t with sender := .thrown }
  | stored (packet : Message) (todo packets : List Message) : t.sender = .storing (packet :: todo) packets →
      Sent t .store { t with storage := t.storage.store packet, sender := .storing todo packets }
  | through (packets : List Message) : t.sender = .storing [] packets →
      Sent t .store { t with sender := .sending packets }
  | sent (packet : Message) (todo : List Message) : t.sender = .sending (packet :: todo) → t.sends = true →
      Sent t .send { t with wire := t.wire ++ [.packet packet], sender := .sending todo }
  | unsent (packet : Message) (todo : List Message) : t.sender = .sending (packet :: todo) → t.sends = false →
      Sent t .send { t with sender := .thrown }
  | done : t.sender = .sending [] → Sent t .send { t with sender := .idle }
  | raw (frame : Message) : t.sender = .raw frame → t.sends = true →
      Sent t .send { t with wire := t.wire ++ [.raw frame], sender := .idle }
  | unraw (frame : Message) : t.sender = .raw frame → t.sends = false →
      Sent t .send { t with sender := .thrown }

/-- The steps of the thread that brings the messages. -/
inductive Responded (t : Track) : TrackAction → Track → Prop
  | ignored (message : Message) : t.responder = .idle → Responded t (.incoming message) t
  | asked (message : Message) (missing : List UInt16) : t.responder = .idle →
      Responded t (.incoming message) { t with responder := .getting missing, asked := t.asked ++ missing }
  | unknown (number : UInt16) (missing : List UInt16) : t.responder = .getting (number :: missing) →
      t.storage.get number = none → Responded t .get { t with responder := .getting missing }
  | found (number : UInt16) (packet : Message) (missing : List UInt16) :
      t.responder = .getting (number :: missing) → t.storage.get number = some packet →
      Responded t .get { t with responder := .answering number packet missing }
  | done : t.responder = .getting [] → Responded t .get { t with responder := .idle }
  | answered (number : UInt16) (packet : Message) (missing : List UInt16) :
      t.responder = .answering number packet missing → t.sends = true →
      Responded t .answer { t with wire := t.wire ++ [.answer number packet], responder := .getting missing }
  | caught (number : UInt16) (packet : Message) (missing : List UInt16) :
      t.responder = .answering number packet missing → t.sends = false →
      Responded t .answer { t with responder := .idle }

/-- The steps of the rest. -/
inductive Closed (t : Track) : TrackAction → Track → Prop
  | opened : Closed t .opened { t with transport := true }
  | closed : Closed t .closed { t with isClosed := true }
  | resetHandler : t.isClosed = true → Closed t .resetHandler { t with handler := false }
  | disconnect : Closed t .disconnect { t with transport := false }
  | srtp (protects : Bool) : Closed t (.srtp protects) { t with protects := protects }

theorem sent_of_report {t : Track} {packets : List Message} {timestamp : UInt32}
    (hs : t.sender = .counted packets timestamp) (now : ℕ) (ntp : UInt64) :
    Sent t (.report now ntp) (t.report packets timestamp now ntp) := by
  unfold Track.report
  split_ifs with hnot
  · exact .unreported packets timestamp now ntp hs
  · rw [Bool.or_eq_true, not_or, List.isEmpty_iff] at hnot
    cases hreport : t.reporter.getSenderReport t.config ntp timestamp with
    | none => exact .unreportable packets timestamp now ntp hs (.inr hreport)
    | some message =>
        by_cases htransport : t.sends = true
        · simp only [Track.transportSend, if_pos htransport]
          exact .reported packets timestamp now ntp message hs hnot.1 htransport hreport
        · simp only [Track.transportSend, if_neg htransport]
          exact .unreportable packets timestamp now ntp hs (.inl (by simpa using htransport))

theorem sent_of_sendStep {t t' : Track} {a : TrackAction} (h : t.sendStep a = some t') : Sent t a t' := by
  unfold Track.sendStep at h
  split at h
  case h_1 frame hs =>
    split_ifs at h with hopen
    · cases h
      exact .checked frame hs hopen
    · cases h
      exact .dropped frame hs (by simpa using hopen)
  case h_2 frame hs =>
    by_cases hclosed : t.isClosed = true
    · rw [if_pos hclosed] at h
      cases h
      exact .isClosed frame hs hclosed
    · rw [if_neg hclosed] at h
      cases h
      exact .entered frame hs (by simpa using hclosed)
  case h_3 frame hs =>
    split_ifs at h with hhandler
    · unfold Track.packetize at h
      cases hout : RtpPacketizer.outgoing t.config [frame] with
      | none =>
          rw [hout] at h
          cases h
      | some out =>
          rw [hout] at h
          cases h
          exact .packetized frame out.1 out.2 hs hhandler hout
    · cases h
      exact .unhandled frame hs (by simpa using hhandler)
  case h_4 packets timestamp now ntp hs =>
    cases h
    exact sent_of_report hs now ntp
  case h_5 packet todo packets hs =>
    cases h
    exact .stored packet todo packets hs
  case h_6 packets hs =>
    cases h
    exact .through packets hs
  case h_7 packet todo hs =>
    by_cases htransport : t.sends = true
    · simp only [Track.transportSend, if_pos htransport, Option.map_some, Option.getD_some] at h
      cases h
      exact .sent packet todo hs htransport
    · simp only [Track.transportSend, if_neg htransport, Option.map_none, Option.getD_none] at h
      cases h
      exact .unsent packet todo hs (by simpa using htransport)
  case h_8 hs =>
    cases h
    exact .done hs
  case h_9 frame hs =>
    by_cases htransport : t.sends = true
    · simp only [Track.transportSend, if_pos htransport, Option.map_some, Option.getD_some] at h
      cases h
      exact .raw frame hs htransport
    · simp only [Track.transportSend, if_neg htransport, Option.map_none, Option.getD_none] at h
      cases h
      exact .unraw frame hs (by simpa using htransport)
  case h_10 => cases h

theorem responded_of_respondStep {t t' : Track} {a : TrackAction} (h : t.respondStep a = some t') :
    Responded t a t' := by
  unfold Track.respondStep at h
  split at h
  case h_1 message hs =>
    split at h
    · obtain ⟨missing, -, rfl⟩ := Option.map_eq_some_iff.mp h
      exact .asked message missing hs
    · cases h
      exact .ignored message hs
  case h_2 number missing hs =>
    cases hget : t.storage.get number with
    | none =>
        rw [hget] at h
        cases h
        exact .unknown number missing hs hget
    | some packet =>
        rw [hget] at h
        cases h
        exact .found number packet missing hs hget
  case h_3 hs =>
    cases h
    exact .done hs
  case h_4 number packet missing hs =>
    by_cases htransport : t.sends = true
    · simp only [Track.transportSend, if_pos htransport, Option.map_some, Option.getD_some] at h
      cases h
      exact .answered number packet missing hs htransport
    · simp only [Track.transportSend, if_neg htransport, Option.map_none, Option.getD_none] at h
      cases h
      exact .caught number packet missing hs (by simpa using htransport)
  case h_5 => cases h

theorem closed_of_closeStep {t t' : Track} {a : TrackAction} (h : t.closeStep a = some t') : Closed t a t' := by
  unfold Track.closeStep at h
  split at h
  case h_1 =>
    cases h
    exact .opened
  case h_2 =>
    cases h
    exact .closed
  case h_3 =>
    split_ifs at h with hclosed
    cases h
    exact .resetHandler hclosed
  case h_4 =>
    cases h
    exact .disconnect
  case h_5 protects =>
    cases h
    exact .srtp protects
  case h_6 => cases h

/-- **A step** is one of the three parties'. -/
theorem step_cases {t t' : Track} {a : TrackAction} (h : t.step a = some t') :
    Sent t a t' ∨ Responded t a t' ∨ Closed t a t' := by
  cases a with
  | sendFrame | outgoing | handler | report | store | send => exact .inl (sent_of_sendStep h)
  | incoming | get | answer => exact .inr (.inl (responded_of_respondStep h))
  | opened => exact .inr (.inr (closed_of_closeStep (a := .opened) h))
  | closed => exact .inr (.inr (closed_of_closeStep (a := .closed) h))
  | resetHandler => exact .inr (.inr (closed_of_closeStep (a := .resetHandler) h))
  | disconnect => exact .inr (.inr (closed_of_closeStep (a := .disconnect) h))
  | srtp protects => exact .inr (.inr (closed_of_closeStep (a := .srtp protects) h))

end Media

end WebrtcStreamer
