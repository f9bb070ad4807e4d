import WebrtcStreamer.Media.Track

/-!
# `Media.Transmission` — what a track hands to its transport

The invariants of `Media.Track`, over every interleaving of the thread that sends, the thread that answers and
whatever closes the track:

* `Sending` — the packets of the frames go out once each and in their order, and are all stored before the
  first one goes out;
* `Answering` — an answer is a packet that the responder has found in the storage, for a number that has been
  asked for;
* `Reporting` — a report counts the packets made until then, which are those that have gone out and those that
  are about to.
-/

namespace WebrtcStreamer

namespace Media

open Transition RtcpNackResponder Storage

/-! ## Observations -/

/-- The packets that go out for the first time. -/
def firsts (wire : List Transmission) : List Message :=
  wire.filterMap fun
    | .packet message => some message
    | _ => none

def answers (wire : List Transmission) : List (UInt16 × Message) :=
  wire.filterMap fun
    | .answer number message => some (number, message)
    | _ => none

/-- What the sender still has to store. -/
def Sender.unstored : Sender → List Message
  | .counted packets _ => packets
  | .storing todo _ => todo
  | _ => []

/-- What the sender still has to hand to the transport. -/
def Sender.unsent : Sender → List Message
  | .counted packets _ => packets
  | .storing _ packets => packets
  | .sending todo => todo
  | _ => []

/-- The packet that a step stores. -/
def stores (t : Track) : TrackAction → List Message
  | .store =>
      match t.sender with
      | .storing (packet :: _) _ => [packet]
      | _ => []
  | _ => []

@[simp] theorem firsts_append (wire more : List Transmission) :
    firsts (wire ++ more) = firsts wire ++ firsts more := List.filterMap_append

@[simp] theorem answers_append (wire more : List Transmission) :
    answers (wire ++ more) = answers wire ++ answers more := List.filterMap_append

/-! ## Sending -/

variable {config : RtpPacketizationConfig} {t t' : Track} {packets stored : List BufferedPacket}

structure Sending (config : RtpPacketizationConfig) (t : Track) (packets stored : List BufferedPacket) : Prop where
  /-- The packets are those of the frames. -/
  outgoing : RtpPacketizer.outgoing config t.frames = some (packets.map BufferedPacket.message, t.config)
  stream : Stream config t.config packets
  holds : t.storage.Holds (stored.map elementOf)
  maxSize : t.storage.maxSize = defaultMaxSize
  stored_prefix : stored <+: packets
  sent_prefix : firsts t.wire <+: packets.map BufferedPacket.message
  toStore : t.sender ≠ .thrown →
    packets.map BufferedPacket.message = stored.map BufferedPacket.message ++ t.sender.unstored
  toSend : t.sender ≠ .thrown → packets.map BufferedPacket.message = firsts t.wire ++ t.sender.unsent

theorem sending_new (config : RtpPacketizationConfig) : Sending config (.new config) [] [] where
  outgoing := rfl
  stream := stream_nil config
  holds := holds_new defaultMaxSize
  maxSize := rfl
  stored_prefix := List.prefix_rfl
  sent_prefix := List.prefix_rfl
  toStore _ := rfl
  toSend _ := rfl

/-- What the other threads do to the track is nothing to the sender. -/
theorem Sending.congr (h : Sending config t packets stored) (hconfig : t'.config = t.config)
    (hframes : t'.frames = t.frames) (hstorage : t'.storage = t.storage) (hsender : t'.sender = t.sender)
    (hwire : firsts t'.wire = firsts t.wire) : Sending config t' packets stored where
  outgoing := by rw [hframes, hconfig]; exact h.outgoing
  stream := by rw [hconfig]; exact h.stream
  holds := by rw [hstorage]; exact h.holds
  maxSize := by rw [hstorage]; exact h.maxSize
  stored_prefix := h.stored_prefix
  sent_prefix := by rw [hwire]; exact h.sent_prefix
  toStore := by rw [hsender]; exact h.toStore
  toSend := by rw [hsender, hwire]; exact h.toSend

/-- The sender goes on, with as much to store and to send as before. -/
theorem Sending.move (h : Sending config t packets stored) {sender : Sender} {wire : List Transmission}
    {reporter : RtcpSrReporter} (hthrown : t.sender = .thrown → sender = .thrown)
    (hstored : sender ≠ .thrown → sender.unstored = t.sender.unstored)
    (hsent : sender ≠ .thrown → firsts wire ++ sender.unsent = firsts t.wire ++ t.sender.unsent)
    (hwire : firsts wire <+: packets.map BufferedPacket.message) :
    Sending config { t with sender := sender, wire := wire, reporter := reporter } packets stored where
  outgoing := h.outgoing
  stream := h.stream
  holds := h.holds
  maxSize := h.maxSize
  stored_prefix := h.stored_prefix
  sent_prefix := hwire
  toStore hne := by
    rw [h.toStore fun heq => hne (hthrown heq), hstored hne]
  toSend hne := by
    rw [h.toSend fun heq => hne (hthrown heq), hsent hne]

theorem Sending.throw (h : Sending config t packets stored) :
    Sending config { t with sender := .thrown } packets stored :=
  h.move (fun _ => rfl) (fun hne => absurd rfl hne) (fun hne => absurd rfl hne) h.sent_prefix

/-- **Another frame** comes to the packetizer when everything before it is stored and sent. -/
theorem Sending.packetized (h : Sending config t packets stored) {frame : Message}
    (hframe : frame.data.length < 2 ^ 53) (hsender : t.sender = .entered frame) {messages : List Message}
    {config' : RtpPacketizationConfig}
    (hout : RtpPacketizer.outgoing t.config [frame] = some (messages, config')) {timestamp : UInt32}
    {reporter : RtcpSrReporter} :
    ∃ more, messages = more.map BufferedPacket.message ∧ Stream t.config config' more ∧
      Sending config
        { t with
          config := config'
          reporter := reporter
          frames := t.frames ++ [frame]
          sender := .counted messages timestamp } (packets ++ more) stored := by
  obtain ⟨more, config'', hout', hmore⟩ := outgoing_stream t.config
    (show ∀ message ∈ [frame], message.data.length < 2 ^ 53 by simpa using hframe)
  obtain ⟨rfl, rfl⟩ := Prod.mk.inj (Option.some.inj (hout'.symm.trans hout))
  have hthrown : t.sender ≠ .thrown := by simp [hsender]
  have hstore := h.toStore hthrown
  have hsend := h.toSend hthrown
  -- Of the frames before, everything has been stored and sent.
  rw [hsender] at hstore hsend
  simp only [Sender.unstored, Sender.unsent, List.append_nil] at hstore hsend
  refine ⟨more, rfl, hmore, ?_⟩
  constructor
  case outgoing => rw [List.map_append]; exact outgoing_append h.outgoing hout'
  case stream => exact h.stream.append hmore
  case holds => exact h.holds
  case maxSize => exact h.maxSize
  case stored_prefix => exact h.stored_prefix.trans (List.prefix_append _ _)
  case sent_prefix =>
    rw [List.map_append]
    exact h.sent_prefix.trans (List.prefix_append _ _)
  case toStore => exact fun _ => by rw [List.map_append, hstore]; rfl
  case toSend => exact fun _ => by rw [List.map_append, hsend]; rfl

/-- **Another packet** is stored. -/
theorem Sending.store (h : Sending config t packets stored) {message : Message} {todo all : List Message}
    (hsender : t.sender = .storing (message :: todo) all) :
    ∃ packet : BufferedPacket, packet.message = message ∧ Sending config
      { t with storage := t.storage.store message, sender := .storing todo all } packets (stored ++ [packet]) := by
  have hthrown : t.sender ≠ .thrown := by simp [hsender]
  have hstore := h.toStore hthrown
  have hsend := h.toSend hthrown
  rw [hsender] at hstore hsend
  obtain ⟨rest, hrest⟩ := h.stored_prefix
  subst hrest
  rw [List.map_append, List.append_cancel_left_eq] at hstore
  cases rest with
  | nil => exact absurd hstore (by simp [Sender.unstored])
  | cons packet rest =>
      obtain ⟨hmessage, htodo⟩ := List.cons.inj hstore
      -- The storage needs numbers that follow each other; the packets of the stream have them.
      have hbegin : stored ++ [packet] <+: stored ++ packet :: rest := ⟨rest, by simp⟩
      have hcons : Consecutive ((stored ++ [packet]).map elementOf) := by
        obtain ⟨last, hlast⟩ := hbegin
        have hall := consecutive_elements h.stream.numbers
        rw [← hlast, List.map_append] at hall
        exact hall.of_append
      rw [List.map_append, List.map_singleton] at hcons
      have hbytes := h.stream.bytes packet (by simp)
      have hinsert := h.holds.insert_consecutive (by rw [h.maxSize]; decide) (by rw [h.maxSize]; decide) hcons
      refine ⟨packet, hmessage, ?_⟩
      rw [← hmessage, store_message hbytes]
      constructor
      case outgoing => exact h.outgoing
      case stream => exact h.stream
      case holds => rw [List.map_append]; exact hinsert.1
      case maxSize => exact hinsert.2.trans h.maxSize
      case stored_prefix => exact hbegin
      case sent_prefix => exact h.sent_prefix
      case toStore =>
        intro _
        have htodo' : rest.map BufferedPacket.message = todo := htodo
        simp [Sender.unstored, htodo']
      case toSend => exact fun _ => hsend

/-- **A step of the sender.** -/
theorem Sending.sent (h : Sending config t packets stored) {a : TrackAction} (hst : Sent t a t')
    (hsmall : ∀ frame ∈ t'.frames, frame.data.length < 2 ^ 53) :
    ∃ packets' stored', packets <+: packets' ∧ stored <+: stored' ∧
      stored'.map BufferedPacket.message = stored.map BufferedPacket.message ++ stores t a ∧
        Sending config t' packets' stored' := by
  have hkeep : stores t a = [] → Sending config t' packets stored →
      ∃ packets' stored', packets <+: packets' ∧ stored <+: stored' ∧
        stored'.map BufferedPacket.message = stored.map BufferedPacket.message ++ stores t a ∧
          Sending config t' packets' stored' := by
    intro hnone h'
    refine ⟨packets, stored, List.prefix_rfl, List.prefix_rfl, ?_, h'⟩
    rw [hnone, List.append_nil]
  cases hst with
  | dropped => exact hkeep rfl h
  | checked frame hs =>
      exact hkeep rfl (h.move (by simp [hs]) (by simp [hs, Sender.unstored]) (by simp [hs, Sender.unsent])
        h.sent_prefix)
  | entered frame hs =>
      exact hkeep rfl (h.move (by simp [hs]) (by simp [hs, Sender.unstored]) (by simp [hs, Sender.unsent])
        h.sent_prefix)
  | isClosed => exact hkeep rfl h.throw
  | packetized frame messages config' hs hhandler hout =>
      obtain ⟨more, -, -, hnext⟩ := h.packetized (hsmall frame (by simp)) hs hout
      exact ⟨packets ++ more, stored, List.prefix_append _ _, List.prefix_rfl, (List.append_nil _).symm, hnext⟩
  | unhandled frame hs =>
      exact hkeep rfl (h.move (by simp [hs]) (by simp [hs, Sender.unstored]) (by simp [hs, Sender.unsent])
        h.sent_prefix)
  | unreported messages timestamp now ntp hs =>
      exact hkeep rfl (h.move (by simp [hs]) (by simp [hs, Sender.unstored]) (by simp [hs, Sender.unsent])
        h.sent_prefix)
  | reported messages timestamp now ntp report hs =>
      exact hkeep rfl (h.move (by simp [hs]) (by simp [hs, Sender.unstored])
        (by simp [hs, Sender.unsent, firsts]) (by simpa [firsts] using h.sent_prefix))
  | unreportable => exact hkeep rfl h.throw
  | stored message todo all hs =>
      obtain ⟨packet, hmessage, hnext⟩ := h.store hs
      refine ⟨packets, stored ++ [packet], List.prefix_rfl, List.prefix_append _ _, ?_, hnext⟩
      rw [List.map_append, List.map_singleton, hmessage]
      simp only [stores, hs]
  | through messages hs =>
      exact hkeep (by simp [stores, hs]) (h.move (by simp [hs]) (by simp [hs, Sender.unstored])
        (by simp [hs, Sender.unsent]) h.sent_prefix)
  | sent message todo hs =>
      have hsend := h.toSend (by simp [hs])
      rw [hs] at hsend
      refine hkeep rfl (h.move (by simp [hs]) (by simp [hs, Sender.unstored])
        (by simp [hs, Sender.unsent, firsts]) ?_)
      rw [hsend]
      exact ⟨todo, by simp [firsts, Sender.unsent]⟩
  | unsent => exact hkeep rfl h.throw
  | done hs =>
      exact hkeep rfl (h.move (by simp [hs]) (by simp [hs, Sender.unstored]) (by simp [hs, Sender.unsent])
        h.sent_prefix)
  | raw frame hs =>
      exact hkeep rfl (h.move (by simp [hs]) (by simp [hs, Sender.unstored])
        (by simp [hs, Sender.unsent, firsts]) (by simpa [firsts] using h.sent_prefix))
  | unraw => exact hkeep rfl h.throw

/-- **A step of another thread.** -/
theorem Sending.responded (h : Sending config t packets stored) {a : TrackAction} (hst : Responded t a t') :
    Sending config t' packets stored := by
  cases hst with
  | answered => exact h.congr rfl rfl rfl rfl (by simp [firsts])
  | ignored | asked | unknown | found | done | caught => exact h.congr rfl rfl rfl rfl rfl

theorem Sending.closed (h : Sending config t packets stored) {a : TrackAction} (hst : Closed t a t') :
    Sending config t' packets stored := by
  cases hst <;> exact h.congr rfl rfl rfl rfl rfl

/-! ## Answering -/

/-- In the run, the responder has found the packet in the storage; it was one of the last packets stored until
    then. -/
def Found (config : RtpPacketizationConfig) (as : List TrackAction) (stored : List BufferedPacket)
    (number : UInt16) (message : Message) : Prop :=
  ∃ (before after : List TrackAction) (u : Track) (missing : List UInt16) (earlier : List BufferedPacket)
      (packet : BufferedPacket),
    as = before ++ .get :: after ∧ exec Track.step (.new config) before = some u ∧
      u.responder = .getting (number :: missing) ∧ u.storage.get number = some message ∧
        earlier <+: stored ∧
          earlier.map BufferedPacket.message = trace Track.step stores (.new config) before ∧
            packet ∈ earlier.rtake defaultMaxSize ∧ packet.header.seqNumber = number ∧ packet.message = message

theorem Found.mono {as as' : List TrackAction} {stored stored' : List BufferedPacket} {number : UInt16}
    {message : Message} (h : Found config as stored number message) (has : as <+: as')
    (hstored : stored <+: stored') : Found config as' stored' number message := by
  obtain ⟨before, after, u, missing, earlier, packet, heq, hexec, hr, hget, hearlier, hpacket⟩ := h
  obtain ⟨more, rfl⟩ := has
  refine ⟨before, after ++ more, u, missing, earlier, packet, ?_, hexec, hr, hget, hearlier.trans hstored, hpacket⟩
  rw [heq, List.append_assoc, List.cons_append]

/-- What the responder may send for a number. -/
structure Answerable (config : RtpPacketizationConfig) (as : List TrackAction) (asked : List UInt16)
    (stored : List BufferedPacket) (number : UInt16) (message : Message) : Prop where
  asked : number ∈ asked
  found : Found config as stored number message

theorem Answerable.mono {as as' : List TrackAction} {asked asked' : List UInt16}
    {stored stored' : List BufferedPacket} {number : UInt16} {message : Message}
    (h : Answerable config as asked stored number message) (has : as <+: as') (hasked : asked ⊆ asked')
    (hstored : stored <+: stored') : Answerable config as' asked' stored' number message :=
  ⟨hasked h.asked, h.found.mono has hstored⟩

/-- What the responder is about to do. -/
def Responder.Due (config : RtpPacketizationConfig) (as : List TrackAction) (asked : List UInt16)
    (stored : List BufferedPacket) : Responder → Prop
  | .idle => True
  | .getting missing => missing ⊆ asked
  | .answering number message missing => Answerable config as asked stored number message ∧ missing ⊆ asked

structure Answering (config : RtpPacketizationConfig) (as : List TrackAction) (t : Track)
    (stored : List BufferedPacket) : Prop where
  due : t.responder.Due config as t.asked stored
  answered : ∀ number message, (number, message) ∈ answers t.wire →
    Answerable config as t.asked stored number message

theorem answering_new (config : RtpPacketizationConfig) : Answering config [] (.new config) [] where
  due := trivial
  answered _ _ h := absurd h List.not_mem_nil

variable {as as' : List TrackAction}

/-- The sender stores packets, and answers nothing. -/
theorem Answering.congr {stored' : List BufferedPacket} (h : Answering config as t stored) (has : as <+: as')
    (hstored : stored <+: stored') (hresponder : t'.responder = t.responder) (hasked : t'.asked = t.asked)
    (hwire : answers t'.wire = answers t.wire) : Answering config as' t' stored' where
  due := by
    have hdue := h.due
    rw [hresponder, hasked]
    cases hr : t.responder with
    | idle => trivial
    | getting missing =>
        rw [hr] at hdue
        exact hdue
    | answering number message missing =>
        rw [hr] at hdue
        exact ⟨hdue.1.mono has (List.Subset.refl _) hstored, hdue.2⟩
  answered number message hmem := by
    rw [hwire] at hmem
    rw [hasked]
    exact (h.answered number message hmem).mono has (List.Subset.refl _) hstored

theorem Answering.sent {stored' : List BufferedPacket} (h : Answering config as t stored) (has : as <+: as')
    (hstored : stored <+: stored') {a : TrackAction} (hst : Sent t a t') : Answering config as' t' stored' := by
  cases hst with
  | reported | sent | raw => exact h.congr has hstored rfl rfl (by simp [answers])
  | dropped | checked | entered | isClosed | packetized | unhandled | unreported | unreportable | stored
  | through | unsent | done | unraw => exact h.congr has hstored rfl rfl rfl

/-- **A step of the responder**: what it finds is one of the last packets that have been stored. -/
theorem Answering.responded (h : Answering config as t stored) (hsending : Sending config t packets stored)
    (hexec : exec Track.step (.new config) as = some t)
    (hstores : stored.map BufferedPacket.message = trace Track.step stores (.new config) as) {a : TrackAction}
    (hst : Responded t a t') : Answering config (as ++ [a]) t' stored := by
  have hdue := h.due
  have has : as <+: as ++ [a] := List.prefix_append _ _
  have hanswered : ∀ number message, (number, message) ∈ answers t.wire →
      Answerable config (as ++ [a]) t.asked stored number message := fun number message hmem =>
    (h.answered number message hmem).mono has (List.Subset.refl _) List.prefix_rfl
  cases hst with
  | ignored => exact h.congr has List.prefix_rfl rfl rfl rfl
  | asked _ missing hr =>
      exact ⟨List.subset_append_right _ _, fun number message hmem =>
        (hanswered number message hmem).mono List.prefix_rfl (List.subset_append_left _ _) List.prefix_rfl⟩
  | unknown number missing hr =>
      rw [hr] at hdue
      exact ⟨(List.cons_subset.mp hdue).2, hanswered⟩
  | found number message missing hr hget =>
      rw [hr] at hdue
      obtain ⟨hnumber, hmissing⟩ := List.cons_subset.mp hdue
      -- What the storage finds is a packet of the stream, though it may not have gone out yet.
      refine ⟨⟨⟨hnumber, as, [], t, missing, stored, ?_⟩, hmissing⟩, hanswered⟩
      have hrtake : (stored.map elementOf).rtake defaultMaxSize = (stored.rtake defaultMaxSize).map elementOf := by
        rw [List.rtake, List.rtake, List.map_drop, List.length_map]
      have hlast := hget
      rw [hsending.holds.get, hsending.maxSize, hrtake, List.find?_map, Option.map_map] at hlast
      obtain ⟨packet, hfind, hmessage⟩ := Option.map_eq_some_iff.mp hlast
      have hheader : number = packet.header.seqNumber := by simpa [elementOf] using List.find?_some hfind
      exact ⟨packet, rfl, hexec, hr, hget, List.prefix_rfl, hstores, List.mem_of_find?_eq_some hfind,
        hheader.symm, hmessage⟩
  | done => exact ⟨trivial, hanswered⟩
  | answered number message missing hr =>
      rw [hr] at hdue
      refine ⟨hdue.2, fun number' message' hmem => ?_⟩
      rcases List.mem_append.mp (answers_append t.wire _ ▸ hmem) with hmem | hmem
      · exact hanswered number' message' hmem
      · obtain ⟨rfl, rfl⟩ := Prod.mk.inj (List.mem_singleton.mp hmem)
        exact hdue.1.mono has (List.Subset.refl _) List.prefix_rfl
  | caught => exact ⟨trivial, hanswered⟩

theorem Answering.closed (h : Answering config as t stored) (has : as <+: as') {a : TrackAction}
    (hst : Closed t a t') : Answering config as' t' stored := by
  cases hst <;> exact h.congr has List.prefix_rfl rfl rfl rfl

/-! ## Reporting -/

/-- In the run, the message has been sent as a report, on all the packets made until then. -/
def Reported (config : RtpPacketizationConfig) (as : List TrackAction) (packets : List BufferedPacket)
    (wire : List Transmission) (message : Message) : Prop :=
  ∃ (before after : List TrackAction) (u : Track) (now : ℕ) (ntp : UInt64) (made : List BufferedPacket)
      (reporter : RtcpSrReporter) (timestamp : UInt32),
    as = before ++ .report now ntp :: after ∧ exec Track.step (.new config) before = some u ∧ u.wire = wire ∧
      (u.step (.report now ntp)).map Track.wire = some (wire ++ [.report message]) ∧
        RtpPacketizer.outgoing config u.frames = some (made.map BufferedPacket.message, u.config) ∧
          made <+: packets ∧ firsts wire <+: made.map BufferedPacket.message ∧
            made.getLast?.map (fun p => p.header.timestamp) = some timestamp ∧
              reporter.packetCount = UInt32.ofNat made.length ∧
                reporter.payloadOctets = UInt32.ofNat (octets made) ∧
                  reporter.getSenderReport config ntp timestamp = some message

theorem Reported.mono {packets' : List BufferedPacket} {wire : List Transmission} {message : Message}
    (h : Reported config as packets wire message) (has : as <+: as') (hpackets : packets <+: packets') :
    Reported config as' packets' wire message := by
  obtain ⟨before, after, u, now, ntp, made, reporter, timestamp, heq, hexec, hwire, hst, hout, hmade, hrest⟩ := h
  obtain ⟨more, rfl⟩ := has
  refine ⟨before, after ++ more, u, now, ntp, made, reporter, timestamp, ?_, hexec, hwire, hst, hout,
    hmade.trans hpackets, hrest⟩
  rw [heq, List.append_assoc, List.cons_append]

structure Reporting (config : RtpPacketizationConfig) (as : List TrackAction) (t : Track)
    (packets : List BufferedPacket) : Prop where
  packetCount : t.reporter.packetCount = UInt32.ofNat packets.length
  payloadOctets : t.reporter.payloadOctets = UInt32.ofNat (octets packets)
  timestamp : ∀ messages timestamp, t.sender = .counted messages timestamp → messages ≠ [] →
    packets.getLast?.map (fun p => p.header.timestamp) = some timestamp
  reported : ∀ earlier message, earlier ++ [.report message] <+: t.wire →
    Reported config as packets earlier message

theorem reporting_new (config : RtpPacketizationConfig) : Reporting config [] (.new config) [] where
  packetCount := rfl
  payloadOctets := rfl
  timestamp _ _ h := absurd h (by simp [Track.new])
  reported _ _ h := absurd (List.prefix_nil.mp h) (by simp)

/-- Only the name and the number of the source go into a report. -/
theorem getSenderReport_congr {config' : RtpPacketizationConfig} (hssrc : config'.ssrc = config.ssrc)
    (hcname : config'.cname = config.cname) (r : RtcpSrReporter) (ntp : UInt64) (timestamp : UInt32) :
    r.getSenderReport config' ntp timestamp = r.getSenderReport config ntp timestamp := by
  simp only [RtcpSrReporter.getSenderReport, hssrc, hcname]

/-- Without another frame there are no other packets. -/
theorem Sending.packets_eq {packets' stored' : List BufferedPacket} (h : Sending config t packets stored)
    (h' : Sending config t' packets' stored') (hframes : t'.frames = t.frames) (hbegin : packets <+: packets') :
    packets' = packets := by
  have hout := h'.outgoing
  rw [hframes, h.outgoing] at hout
  have hmap := congrArg (fun out => List.length out.1) (Option.some.inj hout)
  simp only [List.length_map] at hmap
  exact (hbegin.eq_of_length hmap).symm

/-- What is sent, other than a report, is none. -/
theorem Reporting.wire (h : Reporting config as t packets) (has : as <+: as') {transmission : Transmission}
    (hne : ∀ message, transmission ≠ .report message) :
    ∀ earlier message, earlier ++ [.report message] <+: t.wire ++ [transmission] →
      Reported config as' packets earlier message := by
  intro earlier message hbegin
  rcases List.prefix_concat_iff.mp hbegin with heq | hbegin
  · have hlast := List.append_inj_right' heq rfl
    exact absurd (List.singleton_inj.mp hlast).symm (hne message)
  · exact (h.reported earlier message hbegin).mono has List.prefix_rfl

/-- **A step of the sender.** -/
theorem Reporting.sent {packets' stored' : List BufferedPacket} (h : Reporting config as t packets)
    (hsending : Sending config t packets stored) (hsending' : Sending config t' packets' stored')
    (hbegin : packets <+: packets') (hexec : exec Track.step (.new config) as = some t) {a : TrackAction}
    (hstep : t.step a = some t') (hst : Sent t a t') : Reporting config (as ++ [a]) t' packets' := by
  have has : as <+: as ++ [a] := List.prefix_append _ _
  have hkeep : t'.frames = t.frames → packets' = packets := fun hframes =>
    hsending.packets_eq hsending' hframes hbegin
  cases hst with
  | packetized frame messages config' hs hhandler hout =>
      -- The reporter counts the packets of the frame before any of them goes out.
      obtain ⟨more, rfl⟩ := hbegin
      have hall := hsending'.outgoing
      rw [outgoing_append hsending.outgoing hout, List.map_append] at hall
      have hmessages := List.append_cancel_left (Prod.mk.inj (Option.some.inj hall)).1
      have hstream := hsending'.stream
      have hcount := @count_packets config'.ssrc more
        (fun p hp => ⟨hstream.bytes p (by simp [hp]),
          (hstream.source p (by simp [hp])).1.trans hstream.ssrc.symm, hstream.size p (by simp [hp])⟩)
        t.reporter 0
      rw [← hmessages] at hcount
      constructor
      case packetCount =>
        simp only [hcount, h.packetCount]
        rw [List.length_append, UInt32.ofNat_add]
      case payloadOctets =>
        simp only [hcount, h.payloadOctets, octets, List.map_append, List.sum_append, UInt32.ofNat_add]
      case timestamp =>
        intro messages' timestamp heq hne
        obtain ⟨rfl, rfl⟩ := Sender.counted.inj heq
        have hmore : more ≠ [] := by
          rintro rfl
          exact hne hmessages
        rw [hcount, List.getLast?_append_of_ne_nil _ hmore, List.getLast?_eq_some_getLast hmore]
        rfl
      case reported =>
        intro earlier message hreport
        exact (h.reported earlier message hreport).mono has (List.prefix_append _ _)
  | reported messages timestamp now ntp message hs hne htransport hreport =>
      obtain rfl := hkeep rfl
      have htime := h.timestamp messages timestamp hs hne
      refine ⟨h.packetCount, h.payloadOctets, fun _ _ heq => absurd heq (by simp), ?_⟩
      intro earlier message' hwire
      rcases List.prefix_concat_iff.mp hwire with heq | hwire
      · obtain ⟨rfl, hlast⟩ := List.append_inj' heq rfl
        obtain rfl := Transmission.report.inj (List.singleton_inj.mp hlast)
        refine ⟨as, [], t, now, ntp, packets', t.reporter, timestamp, rfl, hexec, rfl, ?_, hsending.outgoing,
          List.prefix_rfl, hsending.sent_prefix, htime, h.packetCount, h.payloadOctets, ?_⟩
        · rw [hstep]
          rfl
        · rw [← hreport, getSenderReport_congr hsending.stream.ssrc hsending.stream.cname]
      · exact (h.reported earlier message' hwire).mono has List.prefix_rfl
  | sent message todo hs =>
      obtain rfl := hkeep rfl
      exact ⟨h.packetCount, h.payloadOctets, fun _ _ heq => absurd heq (by simp), h.wire has (by simp)⟩
  | raw frame hs =>
      obtain rfl := hkeep rfl
      exact ⟨h.packetCount, h.payloadOctets, fun _ _ heq => absurd heq (by simp), h.wire has (by simp)⟩
  | dropped frame hs =>
      obtain rfl := hkeep rfl
      exact ⟨h.packetCount, h.payloadOctets, h.timestamp, fun earlier message hwire =>
        (h.reported earlier message hwire).mono has List.prefix_rfl⟩
  | checked | entered | isClosed | unhandled | unreported | unreportable | stored | through | unsent | done
  | unraw =>
      obtain rfl := hkeep rfl
      exact ⟨h.packetCount, h.payloadOctets, fun _ _ heq => absurd heq (by simp),
        fun earlier message hwire => (h.reported earlier message hwire).mono has List.prefix_rfl⟩

theorem Reporting.responded (h : Reporting config as t packets) (has : as <+: as') {a : TrackAction}
    (hst : Responded t a t') : Reporting config as' t' packets := by
  cases hst with
  | answered => exact ⟨h.packetCount, h.payloadOctets, h.timestamp, h.wire has (by simp)⟩
  | ignored | asked | unknown | found | done | caught =>
      exact ⟨h.packetCount, h.payloadOctets, h.timestamp,
        fun earlier message hwire => (h.reported earlier message hwire).mono has List.prefix_rfl⟩

theorem Reporting.closed (h : Reporting config as t packets) (has : as <+: as') {a : TrackAction}
    (hst : Closed t a t') : Reporting config as' t' packets := by
  cases hst <;> exact ⟨h.packetCount, h.payloadOctets, h.timestamp,
    fun earlier message hwire => (h.reported earlier message hwire).mono has List.prefix_rfl⟩

/-! ## Runs -/

/-- All of it. -/
structure Streaming (config : RtpPacketizationConfig) (as : List TrackAction) (t : Track)
    (packets stored : List BufferedPacket) : Prop where
  sending : Sending config t packets stored
  stores : stored.map BufferedPacket.message = trace Track.step stores (.new config) as
  answering : Answering config as t stored
  reporting : Reporting config as t packets

theorem stores_responded {a : TrackAction} (hst : Responded t a t') : stores t a = [] := by
  cases hst <;> rfl

theorem stores_closed {a : TrackAction} (hst : Closed t a t') : stores t a = [] := by
  cases hst <;> rfl

theorem Streaming.step (h : Streaming config as t packets stored)
    (hexec : exec Track.step (.new config) as = some t) {a : TrackAction} (hst : t.step a = some t')
    (hsmall : ∀ frame ∈ t'.frames, frame.data.length < 2 ^ 53) :
    ∃ packets' stored', Streaming config (as ++ [a]) t' packets' stored' := by
  have has : as <+: as ++ [a] := List.prefix_append _ _
  have htrace : trace Track.step Media.stores (.new config) (as ++ [a]) =
      stored.map BufferedPacket.message ++ Media.stores t a := by
    rw [trace_snoc hexec, h.stores]
  rcases step_cases hst with hsent | hresponded | hclosed
  · obtain ⟨packets', stored', hpackets, hstored, hstores, hsending⟩ := h.sending.sent hsent hsmall
    exact ⟨packets', stored', hsending, hstores.trans htrace.symm, h.answering.sent has hstored hsent,
      h.reporting.sent h.sending hsending hpackets hexec hst hsent⟩
  · refine ⟨packets, stored, h.sending.responded hresponded, ?_,
      h.answering.responded h.sending hexec h.stores hresponded, h.reporting.responded has hresponded⟩
    rw [htrace, stores_responded hresponded, List.append_nil]
  · refine ⟨packets, stored, h.sending.closed hclosed, ?_, h.answering.closed has hclosed,
      h.reporting.closed has hclosed⟩
    rw [htrace, stores_closed hclosed, List.append_nil]

theorem frames_grow {a : TrackAction} (h : t.step a = some t') : t.frames <+: t'.frames := by
  rcases step_cases h with hst | hst | hst
  · cases hst with
    | packetized => exact List.prefix_append _ _
    | _ => exact List.prefix_rfl
  · cases hst <;> exact List.prefix_rfl
  · cases hst <;> exact List.prefix_rfl

/-- **Every run.** -/
theorem exec_streaming (config : RtpPacketizationConfig) {as : List TrackAction}
    (h : exec Track.step (.new config) as = some t) (hsmall : ∀ frame ∈ t.frames, frame.data.length < 2 ^ 53) :
    ∃ packets stored, Streaming config as t packets stored := by
  revert hsmall
  refine exec_induction (motive := fun as t => (∀ frame ∈ t.frames, frame.data.length < 2 ^ 53) →
    ∃ packets stored, Streaming config as t packets stored) ?_ ?_ as t h
  · exact fun _ => ⟨[], [], sending_new config, rfl, answering_new config, reporting_new config⟩
  · intro as s a s' hexec ih hst hsmall
    obtain ⟨packets, stored, hs⟩ := ih fun frame hframe => hsmall frame ((frames_grow hst).subset hframe)
    exact hs.step hexec hst hsmall

/-! ## Main theorems -/

/-- A track sends a frame of two units, the second of which its peer asks for before it has been sent. -/
def resent : List TrackAction :=
  [.sendFrame ⟨[0, 0, 0, 1, 0x67, 1, 0, 0, 1, 0x65, 2], .binary, some (.ofMicroseconds 2050000)⟩, .outgoing,
    .handler, .report 2000000000 0, .store, .store,
    .incoming ⟨[0x81, 205, 0, 3, 0, 0, 0, 1, 0, 0, 0, 1, 0, 0, 0, 0], .control, none⟩, .get, .answer, .get,
    .store, .send, .send, .send]

theorem exec_resent :
    ∃ t, exec Track.step (.new (.new 1 [118] 102 90000 65535 7)) (.opened :: resent) = some t ∧
      (∀ frame ∈ t.frames, frame.data.length < 2 ^ 53) ∧ t.sender = .idle ∧ (firsts t.wire).length = 2 ∧
        (answers t.wire).map Prod.fst = [0] ∧ ∃ report, [.report report] <+: t.wire := by
  have hrun : ((exec Track.step (.new (.new 1 [118] 102 90000 65535 7)) (.opened :: resent)).any fun t =>
      t.frames.all (fun frame => frame.data.length < 2 ^ 53) && (t.sender matches .idle) &&
        (firsts t.wire).length == 2 && (answers t.wire).map Prod.fst == [0] &&
          (t.wire.head?.any fun
            | .report _ => true
            | .packet _ => false
            | .answer _ _ => false
            | .raw _ => false)) = true := by
    decide +kernel
  obtain ⟨t, ht, hall⟩ := (Option.any_eq_true _ _).mp hrun
  simp only [Bool.and_eq_true, List.all_eq_true, decide_eq_true_eq, beq_iff_eq] at hall
  obtain ⟨⟨⟨⟨hsmall, hsender⟩, hfirsts⟩, hanswers⟩, hwire⟩ := hall
  refine ⟨t, ht, hsmall, ?_, hfirsts, hanswers, ?_⟩
  · split at hsender
    · assumption
    · exact absurd hsender (by simp)
  · obtain ⟨transmission, hhead, hreport⟩ := (Option.any_eq_true _ _).mp hwire
    cases transmission with
    | report report => exact ⟨report, List.singleton_prefix_iff_head?_eq_some.mpr hhead⟩
    | packet => cases hreport
    | answer => cases hreport
    | raw => cases hreport

/-- **What goes out.** However the threads interleave, the packets of the frames go out in their order and at
    most once, and all of them have gone out whenever the multimedia thread is not in `sendFrame`. They are
    numbered without a gap, and none is too long for the smallest MTU. -/
theorem packets_sent_once (config : RtpPacketizationConfig) {as : List TrackAction}
    (h : exec Track.step (.new config) as = some t) (hsmall : ∀ frame ∈ t.frames, frame.data.length < 2 ^ 53) :
    ∃ packets : List BufferedPacket,
      RtpPacketizer.outgoing config t.frames = some (packets.map BufferedPacket.message, t.config) ∧
        packets.map (fun p => p.header.seqNumber) = sequenceNumbers config.sequenceNumber packets.length ∧
          (∀ p ∈ packets, RtpHeader.ofBytes p.data = some p.header ∧ p.header.ssrc = config.ssrc ∧
            p.header.payloadType = config.payloadType &&& 0x7F ∧ p.data.length ≤ 1280 - 8 - 40) ∧
            firsts t.wire <+: packets.map BufferedPacket.message ∧
              (t.sender = .idle → firsts t.wire = packets.map BufferedPacket.message) := by
  obtain ⟨packets, stored, hs⟩ := exec_streaming config h hsmall
  have hstream := hs.sending.stream
  refine ⟨packets, hs.sending.outgoing, hstream.numbers, fun p hp => ?_, hs.sending.sent_prefix, fun hidle => ?_⟩
  · exact ⟨hstream.bytes p hp, (hstream.source p hp).1, (hstream.source p hp).2, hstream.fits p hp⟩
  · have hsend := hs.sending.toSend (by simp [hidle])
    rw [hidle] at hsend
    simpa [Sender.unsent] using hsend.symm

theorem packets_sent_once_resent :
    ∃ (t : Track) (packets : List BufferedPacket), (firsts t.wire).length = 2 ∧
      firsts t.wire = packets.map BufferedPacket.message ∧
        packets.map (fun p => p.header.seqNumber) = [65535, 0] := by
  obtain ⟨t, ht, hsmall, hidle, hfirsts, -⟩ := exec_resent
  obtain ⟨packets, -, hnumbers, -, -, hsent⟩ := packets_sent_once _ ht hsmall
  have hlength : packets.length = 2 := by
    rw [← hfirsts, hsent hidle, List.length_map]
  refine ⟨t, packets, hfirsts, hsent hidle, ?_⟩
  rw [hnumbers, hlength]
  decide

/-- **What is sent again.** Every answer is a packet of the stream, byte for byte, with a number that has been
    asked for; when the responder took it from the storage, it was among the last 512 packets that had been stored
    in the run. -/
theorem answers_are_packets (config : RtpPacketizationConfig) {as : List TrackAction}
    (h : exec Track.step (.new config) as = some t) (hsmall : ∀ frame ∈ t.frames, frame.data.length < 2 ^ 53) :
    ∃ packets : List BufferedPacket,
      RtpPacketizer.outgoing config t.frames = some (packets.map BufferedPacket.message, t.config) ∧
        ∀ number message, (number, message) ∈ answers t.wire →
          number ∈ t.asked ∧
            ∃ (before after : List TrackAction) (u : Track) (missing : List UInt16)
                (stored : List BufferedPacket) (packet : BufferedPacket),
              as = before ++ .get :: after ∧ exec Track.step (.new config) before = some u ∧
                u.responder = .getting (number :: missing) ∧ u.storage.get number = some message ∧
                  stored <+: packets ∧
                    stored.map BufferedPacket.message = trace Track.step stores (.new config) before ∧
                      packet ∈ stored.rtake defaultMaxSize ∧ packet.header.seqNumber = number ∧
                        packet.message = message := by
  obtain ⟨packets, stored, hs⟩ := exec_streaming config h hsmall
  refine ⟨packets, hs.sending.outgoing, fun number message hmem => ?_⟩
  obtain ⟨hasked, hfound⟩ := hs.answering.answered number message hmem
  exact ⟨hasked, hfound.mono List.prefix_rfl hs.sending.stored_prefix⟩

theorem answers_are_packets_resent :
    ∃ (t : Track) (message : Message), (0, message) ∈ answers t.wire ∧ (0 : UInt16) ∈ t.asked ∧
      ∃ packet : BufferedPacket, packet.header.seqNumber = 0 ∧ packet.message = message := by
  obtain ⟨t, ht, hsmall, -, -, hanswers, -⟩ := exec_resent
  obtain ⟨packets, -, hall⟩ := answers_are_packets _ ht hsmall
  obtain ⟨⟨number, message⟩, hmem, rfl⟩ := List.mem_map.mp (hanswers ▸ List.mem_singleton_self (0 : UInt16))
  obtain ⟨hasked, -, -, -, -, -, packet, -, -, -, -, -, -, -, hpacket⟩ := hall _ message hmem
  exact ⟨t, message, hmem, hasked, packet, hpacket⟩

/-- **What is reported.** A report is two complete RTCP packets; its counts and its timestamp are those of all the
    packets made until the step that sends it, which are the ones that have gone out and the ones that are about
    to. -/
theorem reports_count_packets {config : RtpPacketizationConfig} (hcname : config.cname.length ≤ 255)
    {as : List TrackAction} (h : exec Track.step (.new config) as = some t)
    (hsmall : ∀ frame ∈ t.frames, frame.data.length < 2 ^ 53) :
    ∃ packets : List BufferedPacket,
      RtpPacketizer.outgoing config t.frames = some (packets.map BufferedPacket.message, t.config) ∧
        ∀ earlier message, earlier ++ [.report message] <+: t.wire →
          ∃ (before after : List TrackAction) (u : Track) (now : ℕ) (ntp : UInt64)
              (made : List BufferedPacket) (sr sdes : RtcpPacket) (timestamp : UInt32) (zeros : ℕ),
            as = before ++ .report now ntp :: after ∧ exec Track.step (.new config) before = some u ∧
            u.wire = earlier ∧
            (u.step (.report now ntp)).map Track.wire = some (earlier ++ [.report message]) ∧
            RtpPacketizer.outgoing config u.frames = some (made.map BufferedPacket.message, u.config) ∧
            made <+: packets ∧ firsts earlier <+: made.map BufferedPacket.message ∧
              made.getLast?.map (fun p => p.header.timestamp) = some timestamp ∧
                message.type = .control ∧ message.data = sr.toBytes ++ sdes.toBytes ∧
                  sr.header.payloadType = 200 ∧ sr.header.reportCount = 0 ∧
                    sr.body = BigEndian.encode 4 config.ssrc.toNat ++ BigEndian.encode 8 ntp.toNat ++
                      BigEndian.encode 4 timestamp.toNat ++ BigEndian.encode 4 (made.length % 2 ^ 32) ++
                        BigEndian.encode 4 (octets made % 2 ^ 32) ∧
                      sdes.header.payloadType = 202 ∧ sdes.header.reportCount = 1 ∧ 1 ≤ zeros ∧ zeros ≤ 4 ∧
                        sdes.body = BigEndian.encode 4 config.ssrc.toNat ++
                          1 :: UInt8.ofNat config.cname.length :: config.cname ++ List.replicate zeros 0 := by
  obtain ⟨packets, stored, hs⟩ := exec_streaming config h hsmall
  refine ⟨packets, hs.sending.outgoing, fun earlier message hreport => ?_⟩
  obtain ⟨before, after, u, now, ntp, made, reporter, timestamp, heq', hexec, hwire, hst, hout, hmade, hsent, htime,
    hcount, hoctets, hmessage⟩ := hs.reporting.reported earlier message hreport
  obtain ⟨sr, sdes, zeros, heq, hsr, hsrcount, hsrbody, hsdes⟩ :=
    getSenderReport_eq hcname reporter ntp timestamp
  obtain rfl := Option.some.inj (heq.symm.trans hmessage)
  rw [hcount, hoctets, UInt32.toNat_ofNat', UInt32.toNat_ofNat'] at hsrbody
  exact ⟨before, after, u, now, ntp, made, sr, sdes, timestamp, zeros, heq', hexec, hwire, hst, hout, hmade, hsent,
    htime, rfl, rfl, hsr, hsrcount, hsrbody, hsdes⟩

theorem reports_count_packets_resent :
    ∃ (t : Track) (message : Message) (sr sdes : RtcpPacket), [.report message] <+: t.wire ∧
      message.data = sr.toBytes ++ sdes.toBytes := by
  obtain ⟨t, ht, hsmall, -, -, -, report, hreport⟩ := exec_resent
  obtain ⟨packets, -, hall⟩ := reports_count_packets (by decide) ht hsmall
  obtain ⟨-, -, -, -, -, -, sr, sdes, -, -, -, -, -, -, -, -, -, -, -, hdata, -⟩ := hall [] report hreport
  exact ⟨t, report, sr, sdes, hreport, hdata⟩

/-! ## Exceptions -/

/-- Nothing has been done to the track that would make the sender fail. -/
structure Unharmed (t : Track) : Prop where
  isClosed : t.isClosed = false
  handler : t.handler = true
  protects : t.protects = true
  transport : t.sender ≠ .idle → t.transport = true
  cname : t.config.cname.length ≤ 255
  sender : t.sender ≠ .thrown ∧ ∀ frame, t.sender ≠ .raw frame
  wire : ∀ frame, .raw frame ∉ t.wire

theorem unharmed_new {config : RtpPacketizationConfig} (hcname : config.cname.length ≤ 255) :
    Unharmed (.new config) where
  isClosed := rfl
  handler := rfl
  protects := rfl
  transport h := absurd rfl h
  cname := hcname
  sender := ⟨by simp [Track.new], by simp [Track.new]⟩
  wire _ := List.not_mem_nil

/-- In a call of `sendFrame` the transport is there, and lets everything pass. -/
theorem Unharmed.sends (h : Unharmed t) (hs : t.sender ≠ .idle) : t.sends = true := by
  rw [Track.sends, h.transport hs, h.protects]
  rfl

/-- The sender goes on. -/
theorem Unharmed.move (h : Unharmed t) (hs : t.sender ≠ .idle) {sender : Sender} {wire : List Transmission}
    {reporter : RtcpSrReporter} {storage : Storage}
    (hsender : sender ≠ .thrown ∧ ∀ frame, sender ≠ .raw frame) (hwire : ∀ frame, .raw frame ∉ wire) :
    Unharmed { t with sender := sender, wire := wire, reporter := reporter, storage := storage } where
  isClosed := h.isClosed
  handler := h.handler
  protects := h.protects
  transport _ := h.transport hs
  cname := h.cname
  sender := hsender
  wire := hwire

theorem Unharmed.sent (h : Unharmed t) {a : TrackAction} (hst : Sent t a t') : Unharmed t' := by
  have hraws : ∀ {transmission : Transmission}, (∀ frame, transmission ≠ .raw frame) →
      ∀ frame, .raw frame ∉ t.wire ++ [transmission] := by
    intro transmission hne frame hmem
    rcases List.mem_append.mp hmem with hmem | hmem
    · exact h.wire frame hmem
    · exact hne frame (List.mem_singleton.mp hmem).symm
  cases hst with
  | dropped => exact h
  | checked frame hs hopen =>
      have htrue : t.transport = true := by
        rw [Track.isOpen, Bool.and_eq_true] at hopen
        exact hopen.2
      exact ⟨h.isClosed, h.handler, h.protects, fun _ => htrue, h.cname, by simp, h.wire⟩
  | entered frame hs => exact h.move (by simp [hs]) (by simp) h.wire
  | isClosed frame hs htrue => exact absurd htrue (by simp [h.isClosed])
  | packetized frame messages config' hs hhandler hout =>
      have hname : config'.cname = t.config.cname := by
        rw [outgoing_single] at hout
        split_ifs at hout with hforeign
        · cases hout
          rfl
        · obtain ⟨ps, -, heq⟩ := Option.map_eq_some_iff.mp hout
          cases heq
          exact (stamp_eq t.config frame.frameInfo).2.2.1
      have hcname : config'.cname.length ≤ 255 := by
        rw [hname]
        exact h.cname
      exact ⟨h.isClosed, h.handler, h.protects, fun _ => h.transport (by simp [hs]), hcname, by simp, h.wire⟩
  | unhandled frame hs hfalse => exact absurd h.handler (by simp [hfalse])
  | unreported messages timestamp now ntp hs => exact h.move (by simp [hs]) (by simp) h.wire
  | reported messages timestamp now ntp message hs => exact h.move (by simp [hs]) (by simp) (hraws (by simp))
  | unreportable messages timestamp now ntp hs hnone =>
      -- A report can be made as long as its name fits.
      obtain ⟨sr, sdes, zeros, heq, -⟩ := getSenderReport_eq h.cname t.reporter ntp timestamp
      exact absurd hnone (by simp [h.sends (by simp [hs]), heq])
  | stored message todo all hs => exact h.move (by simp [hs]) (by simp) h.wire
  | through messages hs => exact h.move (by simp [hs]) (by simp) h.wire
  | sent message todo hs => exact h.move (by simp [hs]) (by simp) (hraws (by simp))
  | unsent message todo hs hfalse => exact absurd hfalse (by simp [h.sends (by simp [hs])])
  | done hs => exact h.move (by simp [hs]) (by simp) h.wire
  | raw frame hs => exact absurd hs (h.sender.2 frame)
  | unraw frame hs => exact absurd hs (h.sender.2 frame)

theorem Unharmed.responded (h : Unharmed t) {a : TrackAction} (hst : Responded t a t') : Unharmed t' := by
  obtain ⟨hclosed, hhandler, hprotects, htransport, hcname, hsender, hwire⟩ := h
  cases hst with
  | answered => exact ⟨hclosed, hhandler, hprotects, htransport, hcname, hsender, by simpa using hwire⟩
  | ignored | asked | unknown | found | done | caught =>
      exact ⟨hclosed, hhandler, hprotects, htransport, hcname, hsender, hwire⟩

theorem Unharmed.step (h : Unharmed t) {a : TrackAction} (hst : t.step a = some t') (hclosed : a ≠ .closed)
    (hdisconnect : a ≠ .disconnect) (hsrtp : a ≠ .srtp false) : Unharmed t' := by
  cases a with
  | sendFrame | outgoing | handler | report | store | send => exact h.sent (sent_of_sendStep hst)
  | incoming | get | answer => exact h.responded (responded_of_respondStep hst)
  | opened =>
      cases hst
      exact ⟨h.isClosed, h.handler, h.protects, fun _ => rfl, h.cname, h.sender, h.wire⟩
  | closed => exact absurd rfl hclosed
  | disconnect => exact absurd rfl hdisconnect
  | srtp protects =>
      cases hst
      have htrue : protects = true := by
        by_contra hfalse
        exact hsrtp (by simp [hfalse])
      exact ⟨h.isClosed, h.handler, htrue, h.transport, h.cname, h.sender, h.wire⟩
  | resetHandler =>
      have hfalse : (if t.isClosed then some { t with handler := false } else none) = some t' := hst
      rw [if_neg (by simp [h.isClosed])] at hfalse
      cases hfalse

/-- **No exception** comes out of `sendFrame`, and no frame goes out as it is, unless the track is closed, its
    transport is taken away, or SRTP refuses to protect a packet. -/
theorem never_thrown {config : RtpPacketizationConfig} (hcname : config.cname.length ≤ 255)
    {as : List TrackAction} (h : exec Track.step (.new config) as = some t)
    (hopen : ∀ a ∈ as, a ≠ .closed ∧ a ≠ .disconnect ∧ a ≠ .srtp false) :
    t.sender ≠ .thrown ∧ ∀ frame, .raw frame ∉ t.wire := by
  have hunharmed : Unharmed t := by
    revert hopen
    refine exec_induction
      (motive := fun as t => (∀ a ∈ as, a ≠ .closed ∧ a ≠ .disconnect ∧ a ≠ .srtp false) → Unharmed t) ?_ ?_ as t h
    · exact fun _ => unharmed_new hcname
    · intro as s a s' _ ih hst hopen
      obtain ⟨hclosed, hdisconnect, hsrtp⟩ := hopen a (by simp)
      exact (ih fun b hb => hopen b (by simp [hb])).step hst hclosed hdisconnect hsrtp
  exact ⟨hunharmed.sender.1, hunharmed.wire⟩

theorem never_thrown_resent :
    ∃ t : Track, (firsts t.wire).length = 2 ∧ ∀ frame, .raw frame ∉ t.wire := by
  obtain ⟨t, ht, -, -, hfirsts, -⟩ := exec_resent
  exact ⟨t, hfirsts, (never_thrown (by decide) ht (by simp [resent])).2⟩

end Media

end WebrtcStreamer
