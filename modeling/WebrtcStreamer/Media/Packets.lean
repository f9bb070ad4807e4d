import WebrtcStreamer.Media.Fragments

/-!
# `Media.Packets` — the packets of a stream

`packetize` writes a header of twelve bytes in front of each payload. Over all the frames of a stream the
packets are numbered without a gap, as many of a frame as it has payloads, and the last one of them is marked.
-/

namespace WebrtcStreamer

namespace Media

/-! ## The header of a packet -/

theorem RtpHeader.ofBytes_toBytes (h : RtpHeader) (payload : Bytes) :
    RtpHeader.ofBytes (h.toBytes ++ payload) = some h := by
  have hseq : BigEndian.decode (BigEndian.encode 2 h.seqNumber.toNat) = h.seqNumber.toNat :=
    BigEndian.decode_encode h.seqNumber.toNat_lt
  have htime : BigEndian.decode (BigEndian.encode 4 h.timestamp.toNat) = h.timestamp.toNat :=
    BigEndian.decode_encode h.timestamp.toNat_lt
  have hssrc : BigEndian.decode (BigEndian.encode 4 h.ssrc.toNat) = h.ssrc.toNat :=
    BigEndian.decode_encode h.ssrc.toNat_lt
  simp only [BigEndian.encode, List.nil_append, List.cons_append] at hseq htime hssrc
  simp only [RtpHeader.toBytes, BigEndian.encode, List.nil_append, List.cons_append, RtpHeader.ofBytes, hseq, htime,
    hssrc, UInt16.ofNat_toNat, UInt32.ofNat_toNat]

/-- The header that `packetize` writes. -/
def RtpPacketizationConfig.header (config : RtpPacketizationConfig) (mark : Bool) : RtpHeader :=
  let rtp := RtpHeader.zero.setPayloadType config.payloadType
  let rtp := rtp.setSeqNumber config.sequenceNumber
  let rtp := (rtp.setTimestamp config.timestamp).setSsrc config.ssrc
  (if mark then rtp.setMarker true else rtp).preparePacket

theorem packetize_eq (config : RtpPacketizationConfig) (payload : Bytes) (mark : Bool) :
    packetize config payload mark =
      (.packet ((config.header mark).toBytes ++ payload),
        { config with sequenceNumber := config.sequenceNumber + 1 }) := rfl

section Header

variable (config : RtpPacketizationConfig) (mark : Bool)

@[simp] theorem header_seqNumber : (config.header mark).seqNumber = config.sequenceNumber := by
  cases mark <;> rfl

@[simp] theorem header_timestamp : (config.header mark).timestamp = config.timestamp := by
  cases mark <;> rfl

@[simp] theorem header_ssrc : (config.header mark).ssrc = config.ssrc := by
  cases mark <;> rfl

@[simp] theorem header_first : (config.header mark).first = 0x80 := by
  have hfirst : (config.header mark).first = (0 : UInt8) ||| (1 <<< (7 : UInt8)) := by
    cases mark <;> rfl
  rw [hfirst]
  decide

theorem header_second :
    (config.header mark).second = (config.payloadType &&& 0x7F) ||| (if mark then 0x80 else 0) := by
  have hbits : ∀ type : UInt8, (RtpHeader.zero.setPayloadType type).second = type &&& 0x7F ∧
      ((RtpHeader.zero.setPayloadType type).setMarker true).second = (type &&& 0x7F) ||| 0x80 := by
    rintro ⟨type⟩
    revert type
    decide
  cases mark with
  | true => exact (hbits config.payloadType).2
  | false => exact (hbits config.payloadType).1.trans (by simp)

@[simp] theorem header_marker : (config.header mark).marker = mark := by
  have hbits : ∀ type : UInt8, ((type &&& 0x7F) ||| (if mark then 0x80 else 0)) &&& 0b10000000 =
      if mark then 0x80 else 0 := by
    rintro ⟨type⟩
    revert type
    cases mark <;> decide
  rw [RtpHeader.marker, header_second, hbits]
  cases mark <;> rfl

@[simp] theorem header_payloadType : (config.header mark).payloadType = config.payloadType &&& 0x7F := by
  have hbits : ∀ type : UInt8, ((type &&& 0x7F) ||| (if mark then 0x80 else 0)) &&& 0b01111111 =
      type &&& 0x7F := by
    rintro ⟨type⟩
    revert type
    cases mark <;> decide
  rw [RtpHeader.payloadType, header_second, hbits]

@[simp] theorem header_padding : (config.header mark).padding = false := by
  rw [RtpHeader.padding, header_first]
  rfl

@[simp] theorem header_extension : (config.header mark).extension = false := by
  rw [RtpHeader.extension, header_first]
  rfl

@[simp] theorem header_size : (config.header mark).size = 12 := by
  rw [RtpHeader.size, RtpHeader.csrcCount, header_first]
  rfl

end Header

@[simp] theorem length_toBytes (h : RtpHeader) : h.toBytes.length = 12 := by
  simp [RtpHeader.toBytes]

/-! ## The packets of a frame -/

/-- The packets that the payloads of a frame become. -/
def framePackets (config : RtpPacketizationConfig) : List Bytes → List BufferedPacket
  | [] => []
  | payload :: rest =>
      { header := config.header rest.isEmpty, data := (config.header rest.isEmpty).toBytes ++ payload } ::
        framePackets { config with sequenceNumber := config.sequenceNumber + 1 } rest

def BufferedPacket.message (packet : BufferedPacket) : Message := .packet packet.data

theorem packetizeAll_eq (config : RtpPacketizationConfig) (ps : List Bytes) :
    packetizeAll config ps =
      ((framePackets config ps).map BufferedPacket.message,
        { config with sequenceNumber := config.sequenceNumber + UInt16.ofNat ps.length }) := by
  induction ps generalizing config with
  | nil => simp [packetizeAll, framePackets]
  | cons p ps ih =>
      simp only [packetizeAll, packetize_eq, ih, framePackets, List.map_cons, List.length_cons,
        BufferedPacket.message]
      congr 2
      rw [UInt16.ofNat_add, UInt16.add_assoc, UInt16.add_comm 1]
      rfl

/-- What the packets of a frame have in common, and their numbers. -/
theorem mem_framePackets {config : RtpPacketizationConfig} {ps : List Bytes} {packet : BufferedPacket}
    (h : packet ∈ framePackets config ps) :
    RtpHeader.ofBytes packet.data = some packet.header ∧ packet.header.timestamp = config.timestamp ∧
      ∃ i < ps.length, packet.header.seqNumber = config.sequenceNumber + UInt16.ofNat i := by
  induction ps generalizing config with
  | nil => exact absurd h (by simp [framePackets])
  | cons p ps ih =>
      rcases List.mem_cons.mp h with rfl | h
      · exact ⟨RtpHeader.ofBytes_toBytes _ p, by simp, 0, by simp, by simp⟩
      · obtain ⟨hbytes, htime, i, hi, hseq⟩ := ih h
        refine ⟨hbytes, htime, i + 1, by rw [List.length_cons]; omega, ?_⟩
        rw [hseq, UInt16.ofNat_add, UInt16.add_assoc, UInt16.add_comm 1]
        rfl

/-! ## The packets of a stream -/

/-- `n` sequence numbers from `first` on; 0 follows 65535. -/
def sequenceNumbers (first : UInt16) (n : ℕ) : List UInt16 := (List.range n).map (first + UInt16.ofNat ·)

theorem sequenceNumbers_add (first : UInt16) (n m : ℕ) :
    sequenceNumbers first (n + m) = sequenceNumbers first n ++ sequenceNumbers (first + UInt16.ofNat n) m := by
  simp only [sequenceNumbers, List.range_add, List.map_append, List.map_map]
  congr 1
  refine List.map_congr_left fun i _ => ?_
  simp only [Function.comp, UInt16.ofNat_add, UInt16.add_assoc]

theorem sequenceNumbers_framePackets (config : RtpPacketizationConfig) (ps : List Bytes) :
    (framePackets config ps).map (fun p => p.header.seqNumber) =
      sequenceNumbers config.sequenceNumber ps.length := by
  induction ps generalizing config with
  | nil => rfl
  | cons p ps ih =>
      rw [framePackets, List.map_cons, ih, header_seqNumber, List.length_cons, Nat.add_comm,
        sequenceNumbers_add]
      simp [sequenceNumbers]

theorem length_framePackets (config : RtpPacketizationConfig) (ps : List Bytes) :
    (framePackets config ps).length = ps.length := by
  induction ps generalizing config with
  | nil => rfl
  | cons p ps ih => rw [framePackets, List.length_cons, List.length_cons, ih]

/-- A packet is its header and a payload, with what the configuration says of the source. -/
theorem framePackets_payload {config : RtpPacketizationConfig} {ps : List Bytes} {packet : BufferedPacket}
    (h : packet ∈ framePackets config ps) :
    packet.header.ssrc = config.ssrc ∧ packet.header.payloadType = config.payloadType &&& 0x7F ∧
      packet.header.size = 12 ∧ ∃ p ∈ ps, packet.data = packet.header.toBytes ++ p := by
  induction ps generalizing config with
  | nil => exact absurd h (by simp [framePackets])
  | cons p ps ih =>
      rcases List.mem_cons.mp h with rfl | h
      · exact ⟨header_ssrc _ _, header_payloadType _ _, header_size _ _, p, List.mem_cons_self, rfl⟩
      · obtain ⟨hssrc, htype, hsize, p', hp', hdata⟩ := ih h
        exact ⟨hssrc, htype, hsize, p', List.mem_cons_of_mem _ hp', hdata⟩

/-- The last packet of a frame is the marked one. -/
theorem framePackets_marked (config : RtpPacketizationConfig) {ps : List Bytes} (hne : ps ≠ []) :
    ∃ sent marked, framePackets config ps = sent ++ [marked] ∧ marked.header.marker = true ∧
      ∀ p ∈ sent, p.header.marker = false := by
  induction ps generalizing config with
  | nil => exact absurd rfl hne
  | cons p ps ih =>
      by_cases hps : ps = []
      · subst hps
        exact ⟨[], _, rfl, header_marker _ _, by simp⟩
      · obtain ⟨sent, marked, heq, hmarked, hsent⟩ :=
          ih { config with sequenceNumber := config.sequenceNumber + 1 } hps
        have hmark : ps.isEmpty = false := by simpa using hps
        refine ⟨_ :: sent, marked, by rw [framePackets, heq]; rfl, hmarked, ?_⟩
        refine List.forall_mem_cons.mpr ⟨?_, hsent⟩
        rw [header_marker, hmark]

/-- A frame's time is all that its frame info sets. -/
theorem stamp_eq (config : RtpPacketizationConfig) (info : Option FrameInfo) :
    (config.stamp info).sequenceNumber = config.sequenceNumber ∧ (config.stamp info).ssrc = config.ssrc ∧
      (config.stamp info).cname = config.cname ∧ (config.stamp info).payloadType = config.payloadType := by
  rcases info with _ | ⟨time, type, _ | seconds⟩ <;> exact ⟨rfl, rfl, rfl, rfl⟩

/-- Which frames are of another payload type does not change. -/
theorem foreign_stamp (message : Message) (config : RtpPacketizationConfig) (info : Option FrameInfo)
    (n : UInt16) : message.foreign { config.stamp info with sequenceNumber := n } = message.foreign config := by
  rcases info with _ | ⟨time, type, _ | seconds⟩ <;> rfl

/-- One message, and then the others. -/
theorem outgoing_cons (config : RtpPacketizationConfig) (frame : Message) (rest : List Message) :
    RtpPacketizer.outgoing config (frame :: rest) =
      if frame.foreign config then RtpPacketizer.outgoing config rest
      else (fragment frame.data).bind fun ps =>
        (RtpPacketizer.outgoing { config.stamp frame.frameInfo with
            sequenceNumber := config.sequenceNumber + UInt16.ofNat ps.length } rest).map fun out =>
          ((framePackets (config.stamp frame.frameInfo) ps).map BufferedPacket.message ++ out.1, out.2) := by
  simp only [RtpPacketizer.outgoing, packetizeAll_eq, (stamp_eq config frame.frameInfo).1]
  cases fragment frame.data with
  | none => rfl
  | some ps =>
      simp only [Option.bind_eq_bind, Option.bind_some]
      cases RtpPacketizer.outgoing { config.stamp frame.frameInfo with
        sequenceNumber := config.sequenceNumber + UInt16.ofNat ps.length } rest <;> rfl

/-- What the packetizer makes of the packets of a stream. -/
structure Stream (config config' : RtpPacketizationConfig) (packets : List BufferedPacket) : Prop where
  numbers : packets.map (fun p => p.header.seqNumber) = sequenceNumbers config.sequenceNumber packets.length
  next : config'.sequenceNumber = config.sequenceNumber + UInt16.ofNat packets.length
  ssrc : config'.ssrc = config.ssrc
  cname : config'.cname = config.cname
  payloadType : config'.payloadType = config.payloadType
  bytes : ∀ p ∈ packets, RtpHeader.ofBytes p.data = some p.header
  source : ∀ p ∈ packets, p.header.ssrc = config.ssrc ∧ p.header.payloadType = config.payloadType &&& 0x7F
  size : ∀ p ∈ packets, p.header.size = 12
  /-- What the smallest MTU of IPv6 allows. -/
  fits : ∀ p ∈ packets, p.data.length ≤ 1280 - 8 - 40

theorem stream_nil (config : RtpPacketizationConfig) : Stream config config [] where
  numbers := rfl
  next := by simp
  ssrc := rfl
  cname := rfl
  payloadType := rfl
  bytes := by simp
  source := by simp
  size := by simp
  fits := by simp

theorem Stream.append {config config₁ config₂ : RtpPacketizationConfig} {packets more : List BufferedPacket}
    (h : Stream config config₁ packets) (hmore : Stream config₁ config₂ more) :
    Stream config config₂ (packets ++ more) where
  numbers := by
    rw [List.map_append, h.numbers, hmore.numbers, List.length_append, sequenceNumbers_add, h.next]
  next := by rw [hmore.next, h.next, List.length_append, UInt16.ofNat_add, UInt16.add_assoc]
  ssrc := hmore.ssrc.trans h.ssrc
  cname := hmore.cname.trans h.cname
  payloadType := hmore.payloadType.trans h.payloadType
  bytes p hp := (List.mem_append.mp hp).elim (h.bytes p) (hmore.bytes p)
  source p hp := by
    rcases List.mem_append.mp hp with hp | hp
    · exact h.source p hp
    · rw [← h.ssrc, ← h.payloadType]
      exact hmore.source p hp
  size p hp := (List.mem_append.mp hp).elim (h.size p) (hmore.size p)
  fits p hp := (List.mem_append.mp hp).elim (h.fits p) (hmore.fits p)

/-- The packets of one frame. -/
theorem stream_framePackets (config : RtpPacketizationConfig) (info : Option FrameInfo) {ps : List Bytes}
    (hfit : ∀ p ∈ ps, p.length ≤ defaultMaxFragmentSize) :
    Stream config
      { config.stamp info with sequenceNumber := config.sequenceNumber + UInt16.ofNat ps.length }
      (framePackets (config.stamp info) ps) := by
  obtain ⟨hseq, hssrc, hcname, htype⟩ := stamp_eq config info
  have hcount := length_framePackets (config.stamp info) ps
  constructor
  case numbers => rw [sequenceNumbers_framePackets, hcount, hseq]
  case next => rw [hcount]
  case ssrc => exact hssrc
  case cname => exact hcname
  case payloadType => exact htype
  case bytes => exact fun p hp => (mem_framePackets hp).1
  case source =>
    intro p hp
    obtain ⟨hpssrc, hptype, -, -⟩ := framePackets_payload hp
    rw [hpssrc, hptype, hssrc, htype]
    exact ⟨rfl, rfl⟩
  case size => exact fun p hp => (framePackets_payload hp).2.2.1
  case fits =>
    intro p hp
    obtain ⟨-, -, -, payload, hpayload, hdata⟩ := framePackets_payload hp
    have := hfit payload hpayload
    rw [hdata, List.length_append, length_toBytes]
    simp only [defaultMaxFragmentSize] at this
    omega

/-- **The packets of a stream** are numbered without a gap across the frames, and none is too long. -/
theorem outgoing_stream (config : RtpPacketizationConfig) {messages : List Message}
    (hlength : ∀ message ∈ messages, message.data.length < 2 ^ 53) :
    ∃ (packets : List BufferedPacket) (config' : RtpPacketizationConfig),
      RtpPacketizer.outgoing config messages = some (packets.map BufferedPacket.message, config') ∧
        Stream config config' packets := by
  induction messages generalizing config with
  | nil => exact ⟨[], config, rfl, stream_nil config⟩
  | cons message messages ih =>
      obtain ⟨hmessage, hmessages⟩ := List.forall_mem_cons.mp hlength
      rw [outgoing_cons]
      by_cases hforeign : message.foreign config = true
      · rw [if_pos hforeign]
        exact ih config hmessages
      · rw [if_neg hforeign]
        obtain ⟨ps, hps, -, hfit⟩ := fragment_some hmessage
        obtain ⟨more, config', hout, hmore⟩ := ih { config.stamp message.frameInfo with
          sequenceNumber := config.sequenceNumber + UInt16.ofNat ps.length } hmessages
        refine ⟨framePackets (config.stamp message.frameInfo) ps ++ more, config', ?_,
          (stream_framePackets config message.frameInfo hfit).append hmore⟩
        rw [hps, Option.bind_some, hout, List.map_append]
        rfl

/-- Some messages, and then others. -/
theorem outgoing_append_eq (config : RtpPacketizationConfig) (frames frames' : List Message) :
    RtpPacketizer.outgoing config (frames ++ frames') =
      (RtpPacketizer.outgoing config frames).bind fun out =>
        (RtpPacketizer.outgoing out.2 frames').map fun more => (out.1 ++ more.1, more.2) := by
  induction frames generalizing config with
  | nil =>
      rw [List.nil_append, RtpPacketizer.outgoing, Option.bind_some]
      cases RtpPacketizer.outgoing config frames' <;> rfl
  | cons frame frames ih =>
      rw [List.cons_append, outgoing_cons, outgoing_cons]
      split_ifs with hforeign
      · exact ih config
      · rw [Option.bind_assoc]
        refine congrArg _ (funext fun ps => ?_)
        rw [ih, Option.map_bind, Option.bind_map]
        refine congrArg _ (funext fun out => ?_)
        simp only [Function.comp, Option.map_map, List.append_assoc]
        rfl

theorem outgoing_append {config config₁ config₂ : RtpPacketizationConfig} {frames frames' messages more : List Message}
    (h : RtpPacketizer.outgoing config frames = some (messages, config₁))
    (hmore : RtpPacketizer.outgoing config₁ frames' = some (more, config₂)) :
    RtpPacketizer.outgoing config (frames ++ frames') = some (messages ++ more, config₂) := by
  rw [outgoing_append_eq, h, Option.bind_some, hmore]
  rfl

/-- The packetizer, for one frame. -/
theorem outgoing_single (config : RtpPacketizationConfig) (frame : Message) :
    RtpPacketizer.outgoing config [frame] =
      if frame.foreign config then some ([], config)
      else (fragment frame.data).map fun ps =>
        ((framePackets (config.stamp frame.frameInfo) ps).map BufferedPacket.message,
          { config.stamp frame.frameInfo with
            sequenceNumber := config.sequenceNumber + UInt16.ofNat ps.length }) := by
  rw [outgoing_cons]
  cases fragment frame.data with
  | none => rfl
  | some ps => simp [RtpPacketizer.outgoing]

end Media

end WebrtcStreamer
