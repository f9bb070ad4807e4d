import WebrtcStreamer.Media.RoundTrip
import WebrtcStreamer.Media.Timestamp
import WebrtcStreamer.Media.Transmission
import WebrtcStreamer.Streamer.Frames

/-!
# `System.Delivery` — from `pushData` to a receiver

The frames that the multimedia thread hands to a client are what its track is called with. The track makes
packets of them while its peer asks for some again and reports go out in between; a receiver that gets the
packets has the frames back (`delivery`).
-/

namespace WebrtcStreamer

namespace System

open Transition Media

/-! ## Frames in a track -/

/-- `rtpConfig` in the constructor of `Client`, with the two random numbers. -/
def rtpConfig (sequenceNumber : UInt16) (startTimestamp : UInt32) : RtpPacketizationConfig :=
  .new 1 (str "video-stream") 102 clockRate sequenceNumber startTimestamp

/-- The message that `Client::sendFrame` makes of a frame. -/
def frameMessage (frame : Streamer.Frame) : Message where
  data := frame.data
  type := .binary
  frameInfo := some (.ofMicroseconds frame.sampleTime)

/-- The frames that the track is called with. -/
def calledWith (actions : List TrackAction) : List Message :=
  actions.filterMap fun
    | .sendFrame frame => some frame
    | _ => none

/-- The frame on its way to the packetizer. -/
def underWay : Sender → List Message
  | .checked frame | .entered frame => [frame]
  | _ => []

/-- A step of the sender: a frame goes from the call to the packetizer. -/
theorem calledWith_sent {t t' : Track} {a : TrackAction} (h : Unharmed t) (htransport : t.transport = true)
    (hst : Sent t a t') :
    t'.transport = true ∧
      t.frames ++ underWay t.sender ++ calledWith [a] = t'.frames ++ underWay t'.sender := by
  cases hst with
  | dropped frame hs hopen =>
      rw [Track.isOpen, h.isClosed, htransport] at hopen
      exact absurd hopen (by simp)
  | checked frame hs => exact ⟨htransport, by simp [hs, underWay, calledWith]⟩
  | entered frame hs => exact ⟨htransport, by simp [hs, underWay, calledWith]⟩
  | isClosed frame hs hclosed => exact absurd hclosed (by simp [h.isClosed])
  | packetized frame packets config hs => exact ⟨htransport, by simp [hs, underWay, calledWith]⟩
  | unhandled frame hs hhandler => exact absurd hhandler (by simp [h.handler])
  | unreportable packets timestamp now ntp hs hnone =>
      obtain ⟨sr, sdes, zeros, heq, -⟩ := getSenderReport_eq h.cname t.reporter ntp timestamp
      exact absurd hnone (by simp [h.sends (by simp [hs]), heq])
  | unreported packets timestamp now ntp hs => exact ⟨htransport, by simp [hs, underWay, calledWith]⟩
  | reported packets timestamp now ntp message hs => exact ⟨htransport, by simp [hs, underWay, calledWith]⟩
  | stored packet todo packets hs => exact ⟨htransport, by simp [hs, underWay, calledWith]⟩
  | through packets hs => exact ⟨htransport, by simp [hs, underWay, calledWith]⟩
  | sent packet todo hs => exact ⟨htransport, by simp [hs, underWay, calledWith]⟩
  | unsent packet todo hs hfalse => exact absurd hfalse (by simp [h.sends (by simp [hs])])
  | done hs => exact ⟨htransport, by simp [hs, underWay, calledWith]⟩
  | raw frame hs => exact absurd hs (h.sender.2 frame)
  | unraw frame hs => exact absurd hs (h.sender.2 frame)

theorem calledWith_responded {t t' : Track} {a : TrackAction} (htransport : t.transport = true)
    (hst : Responded t a t') :
    t'.transport = true ∧ t.frames ++ underWay t.sender = t'.frames ++ underWay t'.sender := by
  cases hst <;> exact ⟨htransport, rfl⟩

/-- **An open track drops no frame.** -/
theorem calledWith_step {t t' : Track} {a : TrackAction} (h : Unharmed t) (htransport : t.transport = true)
    (hst : t.step a = some t') (hclosed : a ≠ .closed) (hdisconnect : a ≠ .disconnect) :
    t'.transport = true ∧
      t.frames ++ underWay t.sender ++ calledWith [a] = t'.frames ++ underWay t'.sender := by
  cases a with
  | sendFrame | outgoing | handler | report | store | send =>
      exact calledWith_sent h htransport (sent_of_sendStep hst)
  | incoming | get | answer =>
      obtain ⟨htrue, heq⟩ := calledWith_responded htransport (responded_of_respondStep hst)
      exact ⟨htrue, by rw [← heq]; simp [calledWith]⟩
  | opened =>
      cases hst
      exact ⟨rfl, by simp [calledWith]⟩
  | closed => exact absurd rfl hclosed
  | disconnect => exact absurd rfl hdisconnect
  | srtp protects =>
      cases hst
      exact ⟨htransport, by simp [calledWith]⟩
  | resetHandler =>
      have hfalse : (if t.isClosed then some { t with handler := false } else none) = some t' := hst
      rw [if_neg (by simp [h.isClosed])] at hfalse
      cases hfalse

/-- From the time it is opened. -/
theorem calledWith_exec {config : RtpPacketizationConfig} (hcname : config.cname.length ≤ 255)
    {actions : List TrackAction} {t : Track}
    (h : exec Track.step (.new config) (.opened :: actions) = some t)
    (hopen : ∀ a ∈ actions, a ≠ .closed ∧ a ≠ .disconnect ∧ a ≠ .srtp false) :
    calledWith actions = t.frames ++ underWay t.sender := by
  obtain ⟨opened, hopened, hexec⟩ := exec_cons_some.mp h
  have hstart := (unharmed_new hcname).step hopened (by simp) (by simp) (by simp)
  cases hopened
  have hall : Unharmed t ∧ t.transport = true ∧ calledWith actions = t.frames ++ underWay t.sender := by
    revert hopen
    refine exec_induction (motive := fun as t => (∀ a ∈ as, a ≠ .closed ∧ a ≠ .disconnect ∧ a ≠ .srtp false) →
      Unharmed t ∧ t.transport = true ∧ calledWith as = t.frames ++ underWay t.sender) ?_ ?_ actions t hexec
    · exact fun _ => ⟨hstart, rfl, rfl⟩
    · intro as s a s' _ ih hst hopen
      obtain ⟨hs, htransport, hcalled⟩ := ih fun b hb => hopen b (by simp [hb])
      obtain ⟨hclosed, hdisconnect, hsrtp⟩ := hopen a (by simp)
      obtain ⟨htransport', hcalled'⟩ := calledWith_step hs htransport hst hclosed hdisconnect
      refine ⟨hs.step hst hclosed hdisconnect hsrtp, htransport', ?_⟩
      rw [← hcalled', ← hcalled, calledWith, List.filterMap_append]
      rfl
  exact hall.2.2

/-! ## What arrives -/

/-- Nothing arrives that is not one of the packets. -/
theorem mem_of_delivered {config config' : RtpPacketizationConfig} {frames arrivals packets : List Message}
    (h : Delivered config frames arrivals)
    (hout : RtpPacketizer.outgoing config frames = some (packets, config')) : ∀ m ∈ arrivals, m ∈ packets := by
  induction h generalizing config' packets with
  | nil => exact fun m hm => absurd hm List.not_mem_nil
  | @cons config config₁ frame marked frames sent arrived arrivals hfirst harrived _ ih =>
      rw [← List.singleton_append, outgoing_append_eq, hfirst, Option.bind_some] at hout
      obtain ⟨out, hrest, heq⟩ := Option.map_eq_some_iff.mp hout
      obtain ⟨rfl, -⟩ := Prod.mk.inj heq
      intro m hm
      rcases List.mem_append.mp hm with hm | hm
      · simp [(harrived m).mp hm]
      · rcases List.mem_cons.mp hm with rfl | hm
        · simp
        · simp [ih hrest m hm]

/-- The data and the timestamps that a receiver gets. -/
theorem receivedAll_frameMessage {config : RtpPacketizationConfig} (hrate : config.clockRate = clockRate)
    (frames : List Streamer.Frame) :
    (receivedAll config (frames.map frameMessage)).map (fun m => (m.data, m.frameInfo.map FrameInfo.timestamp)) =
      frames.map fun frame =>
        ((splitFrame frame.data).flatMap restored,
          some (config.startTimestamp + UInt32.ofNat (ticks frame.sampleTime).toNat)) := by
  induction frames generalizing config with
  | nil => rfl
  | cons frame frames ih =>
      have hstamp := stamp_timestamp hrate frame.sampleTime
      have hrest := @ih (config.stamp (frameMessage frame).frameInfo) hrate
      simp only [List.map_cons, receivedAll, hrest, List.cons.injEq]
      refine ⟨?_, rfl⟩
      rw [← hstamp]
      rfl

/-- The frames handed to a client are a contiguous run of those queued. -/
theorem exists_accepted {ι : Type} {C : Codec} {as : List (Streamer.Action ι)} {s : Streamer.State ι}
    (h : exec (Streamer.step C) (Streamer.init ι) as = some s) (c : Streamer.ClientRef) :
    ∃ before after, Streamer.shown C Streamer.accepted as =
      before ++ Streamer.shown C (Streamer.handed c) as ++ after := by
  obtain ⟨-, hf, hsp, hr⟩ := Streamer.exec_rounds c as s h
  obtain ⟨before, during, after, htr, hb, hd, ha⟩ := hsp.past
  have hhanded := Streamer.Rounds.during (htr ▸ hr) hb hd ha
  refine ⟨before.map Prod.fst, s.due c ++ after.map Prod.fst ++ s.untraversed ++ s.framesQueueIn.queue, ?_⟩
  rw [hf.traversing, htr, List.map_append, List.map_append, ← hhanded]
  simp only [List.append_assoc]

/-! ## The whole way -/

/-- **From `pushData` to a receiver.** Whatever else the streamer does, a client is handed a contiguous run of the
    frames that have been queued. Let its track be opened and called with these frames, stay open, and have sent
    them; whatever the peer asks for and whenever reports are due, if the packets reach a receiver, those of a
    frame in any order and any number of times before its marked one, it has the frames: in their order, each with
    all of its units, and with the ticks of its sample time. -/
theorem delivery {ι : Type} {C : Codec} {as : List (Streamer.Action ι)} {s : Streamer.State ι}
    (h : exec (Streamer.step C) (Streamer.init ι) as = some s) (c : Streamer.ClientRef)
    (sequenceNumber : UInt16) (startTimestamp : UInt32) {actions : List TrackAction} {t : Track}
    (htrack : exec Track.step (.new (rtpConfig sequenceNumber startTimestamp)) (.opened :: actions) = some t)
    (hopen : ∀ a ∈ actions, a ≠ .closed ∧ a ≠ .disconnect ∧ a ≠ .srtp false)
    (hcalled : calledWith actions = (Streamer.shown C (Streamer.handed c) as).map frameMessage)
    (hidle : t.sender = .idle)
    (hreceivable : ∀ frame ∈ Streamer.shown C (Streamer.handed c) as, Receivable (frameMessage frame))
    {arrivals : List Message}
    (harrivals : Delivered (rtpConfig sequenceNumber startTimestamp) (calledWith actions) arrivals) :
    (∀ m ∈ arrivals, m ∈ firsts t.wire) ∧
      (∃ before after, Streamer.shown C Streamer.accepted as =
        before ++ Streamer.shown C (Streamer.handed c) as ++ after) ∧
        ∃ messages, incomingAll [] arrivals = .ok (messages, []) ∧
          messages.map (fun m => (m.data, m.frameInfo.map FrameInfo.timestamp)) =
            (Streamer.shown C (Streamer.handed c) as).map fun frame =>
              ((splitFrame frame.data).flatMap restored,
                some (startTimestamp + UInt32.ofNat (ticks frame.sampleTime).toNat)) := by
  have hcname : (rtpConfig sequenceNumber startTimestamp).cname.length ≤ 255 := by
    show (str "video-stream").length ≤ 255
    decide
  have hframes := calledWith_exec hcname htrack hopen
  simp only [hidle, underWay, List.append_nil] at hframes
  have hall : ∀ frame ∈ calledWith actions, Receivable frame := by
    rw [hcalled]
    intro frame hframe
    obtain ⟨f, hf, rfl⟩ := List.mem_map.mp hframe
    exact hreceivable f hf
  obtain ⟨packets, stored, hs⟩ := exec_streaming _ htrack
    (fun frame hframe => (hall frame (hframes ▸ hframe)).length_lt)
  have hsent := hs.sending.toSend (by simp [hidle])
  simp only [hidle, Sender.unsent, List.append_nil] at hsent
  refine ⟨fun m hm => ?_, exists_accepted h c, _, round_trip harrivals hall, ?_⟩
  · rw [← hsent]
    exact mem_of_delivered harrivals (hframes ▸ hs.sending.outgoing) m hm
  · rw [hcalled]
    exact receivedAll_frameMessage rfl _

/-- A client registers and is handed a frame with two units, of which the second is preceded by a short start
    sequence. -/
def oneFrame : List (Streamer.Action Unit) :=
  [.onMessage (.receive () (.text (str "\x7b\"id\":\"b\",\"type\":\"request\"\x7d"))), .onMessage .push,
    .loop .check, .loop .pop, .loop .emplace,
    .pushData (.call (some [0, 0, 0, 1, 0x67, 1, 0, 0, 1, 0x65, 2])), .pushData (.lock 0),
    .pushData (.stamp ⟨2, 50000, by decide, by decide⟩), .pushData .push,
    .multimedia .check, .multimedia .pop, .multimedia (.lock [⟨str "b", 0⟩]), .multimedia .enter,
    .multimedia (.leave false), .multimedia .unlock]

theorem delivery_oneFrame :
    ∃ arrivals messages, incomingAll [] arrivals = .ok (messages, []) ∧
      messages.map Message.data = [[0, 0, 0, 1, 0x67, 1, 0, 0, 0, 1, 0x65, 2]] := by
  have hrun : ((exec (Streamer.step JsonText.text) (Streamer.init Unit) oneFrame).isSome &&
      ((exec Track.step (.new (rtpConfig 65535 7)) (.opened :: resent)).any fun t =>
        t.sender matches .idle)) = true := by
    decide +kernel
  rw [Bool.and_eq_true] at hrun
  obtain ⟨s, hs⟩ := Option.isSome_iff_exists.mp hrun.1
  obtain ⟨t, ht, hsender⟩ := (Option.any_eq_true _ _).mp hrun.2
  have hidle : t.sender = .idle := by
    split at hsender
    · assumption
    · exact absurd hsender (by simp)
  have hhanded : Streamer.shown JsonText.text (Streamer.handed 0) oneFrame =
      [⟨[0, 0, 0, 1, 0x67, 1, 0, 0, 1, 0x65, 2], 2050000⟩] := by
    decide +kernel
  have hcalled : calledWith resent =
      (Streamer.shown JsonText.text (Streamer.handed 0) oneFrame).map frameMessage := by
    rw [hhanded]
    rfl
  have hunits : splitFrame [0, 0, 0, 1, 0x67, 1, 0, 0, 1, 0x65, 2] = [[0x67, 1], [0x65, 2]] := by decide
  have hreceivable : ∀ frame ∈ Streamer.shown JsonText.text (Streamer.handed 0) oneFrame,
      Receivable (frameMessage frame) := by
    intro frame hframe
    rw [hhanded, List.mem_singleton] at hframe
    subst hframe
    refine ⟨by decide, fun ps hps => ?_, ?_⟩
    · have hfragment : fragment [0, 0, 0, 1, 0x67, 1, 0, 0, 1, 0x65, 2] = some [[0x67, 1], [0x65, 2]] := by
        rw [fragment, hunits]
        rfl
      cases hfragment.symm.trans hps
      decide
    · intro nalu hnalu
      have hmem : nalu ∈ [[0x67, 1], [0x65, 2]] := hunits ▸ hnalu
      rw [List.mem_cons, List.mem_singleton] at hmem
      rcases hmem with rfl | rfl <;> · simp only [Transmittable]; decide
  obtain ⟨packets, config', hout, -⟩ := outgoing_stream (rtpConfig 65535 7)
    (show ∀ message ∈ calledWith resent, message.data.length < 2 ^ 53 by
      rw [hcalled]
      exact List.forall_mem_map.mpr fun frame hframe => (hreceivable frame hframe).length_lt)
  have harrivals := delivered_in_order hout
    (by rw [hcalled]; exact List.forall_mem_map.mpr fun frame hframe => (hreceivable frame hframe).length_lt)
    (by rw [hcalled]; exact List.forall_mem_map.mpr fun frame _ => rfl)
  obtain ⟨-, -, messages, hmessages, hdata⟩ :=
    delivery hs 0 65535 7 ht (by simp [resent]) hcalled hidle hreceivable harrivals
  refine ⟨_, messages, hmessages, ?_⟩
  have hfst := congrArg (List.map Prod.fst) hdata
  rw [hhanded, List.map_map] at hfst
  exact hfst.trans (by rw [List.map_singleton, List.map_singleton, hunits]; rfl)

end System

end WebrtcStreamer
