import WebrtcStreamer.Media.Packets

/-!
# `Media.RoundTrip` — frames through the packetizer and back

The packets of a frame reach the receiver in any order and any number of times, as long as the marked one
comes last. What the depacketizer then returns are the frames, one after the other, each with the units that
`splitFrame` has found in it (`round_trip`).
-/

namespace WebrtcStreamer

namespace Media

/-! ## The buffer -/

theorem sequenceLess_add {s : UInt16} {i j : ℕ} (hij : i < j) (hj : j < 2 ^ 15) :
    sequenceLess (s + UInt16.ofNat i) (s + UInt16.ofNat j) = true ∧
      sequenceLess (s + UInt16.ofNat j) (s + UInt16.ofNat i) = false := by
  have hs := s.toNat_lt
  have hi : (UInt16.ofNat i).toNat = i := by rw [UInt16.toNat_ofNat']; omega
  have hj' : (UInt16.ofNat j).toNat = j := by rw [UInt16.toNat_ofNat']; omega
  constructor
  · simp only [sequenceLess, UInt16.toNat_sub, UInt16.toNat_add, hi, hj', Bool.and_eq_true, decide_eq_true_eq]
    omega
  · simp only [sequenceLess, UInt16.toNat_sub, UInt16.toNat_add, hi, hj', Bool.and_eq_false_iff,
      decide_eq_false_iff_not]
    omega

theorem sequenceLess_irrefl (s : UInt16) : sequenceLess s s = false := by
  simp [sequenceLess]

/-- In the order of their sequence numbers, those not more than half the numbers apart. -/
def InSequence (packets : List BufferedPacket) : Prop :=
  packets.Pairwise fun x y =>
    sequenceLess x.header.seqNumber y.header.seqNumber = true ∧
      sequenceLess y.header.seqNumber x.header.seqNumber = false

theorem inSequence_framePackets (config : RtpPacketizationConfig) {ps : List Bytes} (h : ps.length ≤ 2 ^ 15) :
    InSequence (framePackets config ps) := by
  induction ps generalizing config with
  | nil => exact List.Pairwise.nil
  | cons p ps ih =>
      rw [List.length_cons] at h
      refine List.Pairwise.cons (fun packet hpacket => ?_) (ih _ (by omega))
      obtain ⟨-, -, i, hi, hseq⟩ := mem_framePackets hpacket
      have hnext : packet.header.seqNumber = config.sequenceNumber + UInt16.ofNat (i + 1) := by
        rw [hseq, UInt16.ofNat_add, UInt16.add_assoc, UInt16.add_comm 1]
        rfl
      have hless := sequenceLess_add (s := config.sequenceNumber) (i := 0) (j := i + 1) (by omega) (by omega)
      rw [hnext, header_seqNumber]
      simpa using hless

/-- **One more packet of a frame** goes to its place among those that are there. -/
theorem bufferInsert_filter {packets : List BufferedPacket} (hseq : InSequence packets)
    {packet : BufferedPacket} (hmem : packet ∈ packets) (q : BufferedPacket → Bool) :
    bufferInsert packet (packets.filter q) = packets.filter fun p => p == packet || q p := by
  induction packets with
  | nil => exact absurd hmem (by simp)
  | cons x packets ih =>
      obtain ⟨hx, hrest⟩ := List.pairwise_cons.mp hseq
      by_cases heq : x = packet
      · subst heq
        -- it is the first of the frame: nothing behind it is the same
        have hnotin : ∀ p ∈ packets, (p == x) = false := by
          intro p hp
          rw [beq_eq_false_iff_ne]
          rintro rfl
          exact absurd ((hx p hp).1.symm.trans (hx p hp).2) (by simp)
        have hfilter : packets.filter (fun p => p == x || q p) = packets.filter q :=
          List.filter_congr fun p hp => by rw [hnotin p hp, Bool.false_or]
        have hright : (x :: packets).filter (fun p => p == x || q p) = x :: packets.filter q := by
          rw [← hfilter]
          exact List.filter_cons_of_pos (by simp)
        rw [hright]
        by_cases hq : q x = true
        · rw [List.filter_cons_of_pos hq, bufferInsert, if_neg (by simp [sequenceLess_irrefl]),
            if_neg (by simp [sequenceLess_irrefl])]
        · rw [List.filter_cons_of_neg hq]
          cases hf : packets.filter q with
          | nil => rfl
          | cons y rest =>
              have hy : y ∈ packets := List.mem_of_mem_filter (hf ▸ List.mem_cons_self)
              rw [bufferInsert, if_pos (hx y hy).1]
      · have hin : packet ∈ packets := (List.mem_cons.mp hmem).resolve_left (fun h => heq h.symm)
        have hne : (x == packet) = false := by rwa [beq_eq_false_iff_ne]
        by_cases hq : q x = true
        · rw [List.filter_cons_of_pos hq, List.filter_cons_of_pos (by simp [hq]), bufferInsert,
            if_neg (by simp [(hx packet hin).2]), if_pos (hx packet hin).1, ih hrest hin]
        · rw [List.filter_cons_of_neg hq, List.filter_cons_of_neg (by simp [hq, heq]), ih hrest hin]

/-! ## Reassembly -/

theorem Reassembly.feed_next {s s' : Reassembly} {payload : Bytes} (h : s.feed payload = .ok s') (next : UInt16) :
    Reassembly.feed { s with nextSeqNumber := next } payload = .ok { s' with nextSeqNumber := next } := by
  cases payload with
  | nil =>
      cases h
      rfl
  | cons first rest =>
      simp only [Reassembly.feed, reassemblePayload] at h ⊢
      split_ifs at h ⊢ with hfua hstap hsingle
      · cases rest with
        | nil =>
            cases h
            rfl
        | cons second fragment =>
            simp only at h ⊢
            split_ifs at h ⊢ <;> cases h <;> simp_all
      · cases hframe : reassembleStap s.frame rest with
        | error e =>
            rw [hframe] at h
            cases h
        | ok frame =>
            rw [hframe] at h
            cases h
            rfl
      · cases h
        rfl

theorem Reassembly.foldlM_feed_next {s s' : Reassembly} {ps : List Bytes}
    (h : ps.foldlM Reassembly.feed s = .ok s') (next : UInt16) :
    ps.foldlM Reassembly.feed { s with nextSeqNumber := next } = .ok { s' with nextSeqNumber := next } := by
  induction ps generalizing s with
  | nil =>
      cases h
      rfl
  | cons p ps ih =>
      rw [List.foldlM_cons] at h ⊢
      cases hp : s.feed p with
      | error e =>
          rw [hp] at h
          cases h
      | ok s₁ =>
          rw [hp] at h
          rw [Reassembly.feed_next hp next]
          exact ih h

/-- The packet that is next in the sequence adds what its payload says. -/
theorem reassemblePacket_eq {s s' : Reassembly} {config : RtpPacketizationConfig} {mark : Bool}
    {payload : Bytes} (hs : s.nextSeqNumber = config.sequenceNumber) (h : s.feed payload = .ok s') :
    reassemblePacket s
        { header := config.header mark, data := (config.header mark).toBytes ++ payload } =
      .ok { s' with nextSeqNumber := config.sequenceNumber + 1 } := by
  have hnext := Reassembly.feed_next h (config.sequenceNumber + 1)
  have hlt : ¬ config.sequenceNumber < config.sequenceNumber := UInt16.lt_irrefl _
  have hdrop : ((config.header mark).toBytes ++ payload).drop 12 = payload :=
    List.drop_left' (length_toBytes _)
  simp only [reassemblePacket, header_seqNumber, hs, if_neg hlt, rtpHeaderSize, header_extension,
    header_padding, header_size, Bool.false_eq_true, if_false, hdrop, List.length_append, length_toBytes,
    decide_eq_false hlt, Bool.not_false, Bool.and_true, Nat.add_sub_cancel_left, Nat.sub_zero,
    List.take_length, Nat.add_zero]
  cases payload with
  | nil => exact hnext
  | cons first rest =>
      rw [if_neg (by simp)]
      exact hnext

/-- All packets of a frame, in their order. -/
theorem foldlM_framePackets {config : RtpPacketizationConfig} {ps : List Bytes} {s s' : Reassembly}
    (hs : s.nextSeqNumber = config.sequenceNumber) (h : ps.foldlM Reassembly.feed s = .ok s') :
    ∃ next, (framePackets config ps).foldlM reassemblePacket s = .ok { s' with nextSeqNumber := next } := by
  induction ps generalizing config s s' with
  | nil =>
      cases h
      exact ⟨s.nextSeqNumber, rfl⟩
  | cons p ps ih =>
      rw [List.foldlM_cons] at h
      cases hp : s.feed p with
      | error e =>
          rw [hp] at h
          cases h
      | ok s₁ =>
          rw [hp] at h
          simp only [framePackets, List.foldlM_cons, reassemblePacket_eq hs hp]
          have hnext := Reassembly.foldlM_feed_next h (config.sequenceNumber + 1)
          obtain ⟨next, hrest⟩ :=
            @ih { config with sequenceNumber := config.sequenceNumber + 1 } _ _ rfl hnext
          exact ⟨next, hrest⟩

/-- The message that a frame with these packets is to become. -/
def received (config : RtpPacketizationConfig) (data : Bytes) : Message where
  data := (splitFrame data).flatMap restored
  type := .binary
  frameInfo := some {
    timestamp := config.timestamp
    payloadType := config.payloadType &&& 0x7F
    timestampSeconds := some (Rounding.roundTo 53 (config.timestamp.toNat / 90000)) }

/-- **All packets of a frame, and nothing else, are in the buffer**: the frame is put together. -/
theorem flush_framePackets (config : RtpPacketizationConfig) {data : Bytes} (hlength : data.length < 2 ^ 53)
    (h : ∀ nalu ∈ splitFrame data, Transmittable defaultMaxFragmentSize nalu) {ps : List Bytes}
    (hps : fragment data = some ps) (hne : ps ≠ []) :
    flush (framePackets config ps) = .ok [received config data] := by
  obtain ⟨p, ps, rfl⟩ := List.exists_cons_of_ne_nil hne
  have hfeed := restored_of_fragment hlength h hps
    (s := { nextSeqNumber := config.sequenceNumber, frame := [], continuousFragments := false }) rfl
  obtain ⟨next, hpackets⟩ := @foldlM_framePackets config _ _ _ rfl hfeed
  simp only [framePackets] at hpackets ⊢
  simp only [flush, reassemble, header_seqNumber, hpackets, header_timestamp, header_payloadType, received,
    List.nil_append]
  rfl

/-! ## Arrival -/

/-- A packet that is of the frame in the buffer, or the first of its frame. -/
theorem incoming_of_timestamp {buffer : List BufferedPacket} {packet : BufferedPacket}
    (hbytes : RtpHeader.ofBytes packet.data = some packet.header)
    (hbuffer : ∀ p ∈ buffer, p.header.timestamp = packet.header.timestamp) :
    incoming buffer packet.message =
      if packet.header.marker then (flush (bufferInsert packet buffer)).map fun messages => (messages, [])
      else .ok ([], bufferInsert packet buffer) := by
  simp only [incoming, BufferedPacket.message, Message.packet, hbytes]
  cases buffer with
  | nil =>
      by_cases hmark : packet.header.marker = true
      · simp only [if_pos hmark, bind, Except.bind]
        cases flush (bufferInsert packet []) <;> rfl
      · simp only [if_neg hmark, bind, Except.bind]
  | cons first rest =>
      have hsame := hbuffer first List.mem_cons_self
      by_cases hmark : packet.header.marker = true
      · simp only [hsame, ne_eq, not_true_eq_false, if_false, if_pos hmark, bind, Except.bind]
        cases flush (bufferInsert packet (first :: rest)) <;> rfl
      · simp only [hsame, ne_eq, not_true_eq_false, if_false, if_neg hmark, bind, Except.bind]

/-- One message, and then the others. -/
theorem incomingAll_cons {buffer buffer' : List BufferedPacket} {message : Message} {messages : List Message}
    (h : incoming buffer message = .ok (messages, buffer')) (rest : List Message) :
    incomingAll buffer (message :: rest) =
      (incomingAll buffer' rest).map fun out => (messages ++ out.1, out.2) := by
  simp only [incomingAll, h, bind, Except.bind]
  cases incomingAll buffer' rest <;> rfl

section Arrival

variable {packets : List BufferedPacket} (hseq : InSequence packets) {timestamp : UInt32}
  (hpackets : ∀ p ∈ packets, RtpHeader.ofBytes p.data = some p.header ∧ p.header.timestamp = timestamp)
include hseq hpackets

/-- **One packet of a frame arrives**, with others of the frame in the buffer. -/
theorem incoming_eq (q : BufferedPacket → Bool) {packet : BufferedPacket} (hmem : packet ∈ packets) :
    incoming (packets.filter q) packet.message =
      if packet.header.marker then
        (flush (packets.filter fun p => p == packet || q p)).map fun messages => (messages, [])
      else .ok ([], packets.filter fun p => p == packet || q p) := by
  obtain ⟨hbytes, htime⟩ := hpackets packet hmem
  rw [← bufferInsert_filter hseq hmem q]
  refine incoming_of_timestamp hbytes fun p hp => ?_
  rw [htime]
  exact (hpackets p (List.mem_of_mem_filter hp)).2

/-- Packets that are not marked only fill the buffer. -/
theorem incomingAll_unmarked (q : BufferedPacket → Bool) (arrived : List BufferedPacket)
    (h : ∀ p ∈ arrived, p ∈ packets ∧ p.header.marker = false) (rest : List Message) :
    incomingAll (packets.filter q) (arrived.map BufferedPacket.message ++ rest) =
      incomingAll (packets.filter fun p => q p || arrived.contains p) rest := by
  induction arrived generalizing q with
  | nil => simp
  | cons packet arrived ih =>
      obtain ⟨⟨hmem, hmark⟩, harrived⟩ := List.forall_mem_cons.mp h
      have hbuffer : (packets.filter fun p => (p == packet || q p) || arrived.contains p) =
          packets.filter fun p => q p || (packet :: arrived).contains p := by
        refine List.filter_congr fun p _ => ?_
        rw [List.contains_cons, Bool.or_comm (p == packet), Bool.or_assoc]
      have hfirst := incoming_eq hseq hpackets q hmem
      rw [if_neg (by simp [hmark])] at hfirst
      rw [List.map_cons, List.cons_append, incomingAll_cons hfirst, ih _ harrived, hbuffer]
      cases incomingAll (packets.filter fun p => q p || (packet :: arrived).contains p) rest <;> rfl

end Arrival

/-! ## Delivery -/

/-- What is among the messages of some packets are messages of some of the packets. -/
theorem exists_packets {packets : List BufferedPacket} {arrived : List Message}
    (h : ∀ m ∈ arrived, m ∈ packets.map BufferedPacket.message) :
    ∃ ps : List BufferedPacket, arrived = ps.map BufferedPacket.message ∧ ∀ p ∈ ps, p ∈ packets := by
  induction arrived with
  | nil => exact ⟨[], rfl, by simp⟩
  | cons m arrived ih =>
      obtain ⟨hm, harrived⟩ := List.forall_mem_cons.mp h
      obtain ⟨p, hp, rfl⟩ := List.mem_map.mp hm
      obtain ⟨ps, rfl, hps⟩ := ih harrived
      exact ⟨p :: ps, rfl, List.forall_mem_cons.mpr ⟨hp, hps⟩⟩

/-- The packets of one frame after the other arrive: those before the marked one in any order, and any number
    of times. -/
inductive Delivered : RtpPacketizationConfig → List Message → List Message → Prop
  | nil (config : RtpPacketizationConfig) : Delivered config [] []
  | cons {config config' : RtpPacketizationConfig} {frame marked : Message}
      {frames sent arrived arrivals : List Message} :
      RtpPacketizer.outgoing config [frame] = some (sent ++ [marked], config') →
      (∀ m, m ∈ arrived ↔ m ∈ sent) →
      Delivered config' frames arrivals →
      Delivered config (frame :: frames) (arrived ++ marked :: arrivals)

/-- A frame that the packets can carry and a receiver can put together. -/
structure Receivable (frame : Message) : Prop where
  length_lt : frame.data.length < 2 ^ 53
  /-- The packets are not more than half the sequence numbers apart. -/
  length_packets : ∀ ps, fragment frame.data = some ps → ps.length ≤ 2 ^ 15
  transmittable : ∀ nalu ∈ splitFrame frame.data, Transmittable defaultMaxFragmentSize nalu

/-- **The packets of a frame arrive**, the marked one last: the frame is returned, and nothing is left. -/
theorem incomingAll_frame {config config' : RtpPacketizationConfig} {frame marked : Message}
    {sent arrived : List Message}
    (hout : RtpPacketizer.outgoing config [frame] = some (sent ++ [marked], config'))
    (harrived : ∀ m, m ∈ arrived ↔ m ∈ sent) (hframe : Receivable frame) (rest : List Message) :
    incomingAll [] (arrived ++ marked :: rest) =
      (incomingAll [] rest).map fun out =>
        (received (config.stamp frame.frameInfo) frame.data :: out.1, out.2) := by
  rw [outgoing_single] at hout
  split_ifs at hout with hforeign
  · exact absurd (congrArg Prod.fst (Option.some.inj hout)) (by simp)
  generalize config.stamp frame.frameInfo = stamped at hout ⊢
  obtain ⟨ps, hps, hne, -⟩ := fragment_some hframe.length_lt
  rw [hps] at hout
  obtain ⟨hmessages, -⟩ := Prod.mk.inj (Option.some.inj hout)
  obtain ⟨unmarked, last, hpackets, hlast, hunmarked⟩ := framePackets_marked stamped hne
  rw [hpackets, List.map_append] at hmessages
  obtain ⟨rfl, hmarked⟩ := List.append_inj' hmessages rfl
  obtain rfl := List.singleton_inj.mp hmarked
  obtain ⟨qs, rfl, hqs⟩ := exists_packets fun m hm => (harrived m).mp hm
  have hseq := inSequence_framePackets stamped (hframe.length_packets ps hps)
  have hbytes := fun p (hp : p ∈ framePackets stamped ps) =>
    And.intro (mem_framePackets hp).1 (mem_framePackets hp).2.1
  have hin : ∀ p ∈ unmarked, p ∈ framePackets stamped ps := fun p hp => by
    rw [hpackets]
    exact List.mem_append_left _ hp
  -- the buffer before the marked packet, and with it
  have hbuffer := incomingAll_unmarked hseq hbytes (fun _ => false) qs
    (fun p hp => ⟨hin p (hqs p hp), hunmarked p (hqs p hp)⟩) (last.message :: rest)
  have hmark := incoming_eq hseq hbytes (fun p => false || qs.contains p)
    (show last ∈ framePackets stamped ps by rw [hpackets]; simp)
  have hall : (framePackets stamped ps).filter (fun p => p == last || (false || qs.contains p)) =
      framePackets stamped ps := by
    refine List.filter_eq_self.mpr fun p hp => ?_
    rw [hpackets] at hp
    rcases List.mem_append.mp hp with hp | hp
    · obtain ⟨q, hq, hdata⟩ :=
        List.mem_map.mp ((harrived p.message).mpr (List.mem_map_of_mem hp))
      have hdata : q.data = p.data := congrArg Message.data hdata
      have hheader : q.header = p.header := by
        have hq := (hbytes q (hin q (hqs q hq))).1
        rw [hdata, (hbytes p (hin p hp)).1] at hq
        exact (Option.some.inj hq).symm
      have hqp : q = p := by
        cases q
        cases p
        simp_all
      simp [← hqp, hq]
    · simp [List.mem_singleton.mp hp]
  rw [if_pos hlast, hall, flush_framePackets stamped hframe.length_lt hframe.transmittable hps hne] at hmark
  rw [List.filter_false] at hbuffer
  rw [hbuffer, incomingAll_cons hmark]
  rfl

/-- Packets that arrive as they were sent are delivered. -/
theorem delivered_in_order {config config' : RtpPacketizationConfig} {frames packets : List Message}
    (h : RtpPacketizer.outgoing config frames = some (packets, config'))
    (hlength : ∀ frame ∈ frames, frame.data.length < 2 ^ 53)
    (hforeign : ∀ frame ∈ frames, frame.foreign config = false) : Delivered config frames packets := by
  induction frames generalizing config packets with
  | nil =>
      cases h
      exact .nil _
  | cons frame frames ih =>
      obtain ⟨hframe, hframes⟩ := List.forall_mem_cons.mp hlength
      obtain ⟨hown, hothers⟩ := List.forall_mem_cons.mp hforeign
      obtain ⟨ps, hps, hne, -⟩ := fragment_some hframe
      obtain ⟨sent, marked, hpackets, -, -⟩ := framePackets_marked (config.stamp frame.frameInfo) hne
      have hfirst := outgoing_single config frame
      rw [if_neg (by simp [hown]), hps, Option.map_some, hpackets, List.map_append] at hfirst
      rw [← List.singleton_append, outgoing_append_eq, hfirst, Option.bind_some] at h
      obtain ⟨out, hrest, heq⟩ := Option.map_eq_some_iff.mp h
      obtain ⟨rfl, rfl⟩ := Prod.mk.inj heq
      have hnext := ih hrest hframes fun f hf => by
        rw [foreign_stamp]
        exact hothers f hf
      rw [List.append_assoc]
      exact .cons hfirst (fun _ => Iff.rfl) hnext

/-- The messages that frames are to become. -/
def receivedAll (config : RtpPacketizationConfig) : List Message → List Message
  | [] => []
  | frame :: frames =>
      received (config.stamp frame.frameInfo) frame.data :: receivedAll (config.stamp frame.frameInfo) frames

theorem receivedAll_sequenceNumber (config : RtpPacketizationConfig) (n : UInt16) (frames : List Message) :
    receivedAll { config with sequenceNumber := n } frames = receivedAll config frames := by
  induction frames generalizing config with
  | nil => rfl
  | cons frame frames ih =>
      have hstamp : RtpPacketizationConfig.stamp { config with sequenceNumber := n } frame.frameInfo =
          { config.stamp frame.frameInfo with sequenceNumber := n } := by
        rcases frame.frameInfo with _ | ⟨time, type, _ | seconds⟩ <;> rfl
      simp only [receivedAll, hstamp, ih]
      rfl

/-- What a frame leaves behind for the next one. -/
theorem outgoing_config {config config' : RtpPacketizationConfig} {frame : Message} {messages : List Message}
    (h : RtpPacketizer.outgoing config [frame] = some (messages, config')) (hne : messages ≠ []) :
    ∃ n, config' = { config.stamp frame.frameInfo with sequenceNumber := n } := by
  rw [outgoing_single] at h
  split_ifs at h with hforeign
  · exact absurd (congrArg Prod.fst (Option.some.inj h)).symm hne
  · obtain ⟨ps, -, heq⟩ := Option.map_eq_some_iff.mp h
    exact ⟨_, (congrArg Prod.snd heq).symm⟩

/-- **Round trip.** Whatever order the packets of a frame arrive in before the marked one, a receiver returns
    the frames that were sent, each with all of its units. -/
theorem round_trip {config : RtpPacketizationConfig} {frames arrivals : List Message}
    (h : Delivered config frames arrivals) (hframes : ∀ frame ∈ frames, Receivable frame) :
    incomingAll [] arrivals = .ok (receivedAll config frames, []) := by
  induction h with
  | nil config => rfl
  | @cons config config' frame marked frames sent arrived arrivals hout harrived _ ih =>
      obtain ⟨hframe, hframes⟩ := List.forall_mem_cons.mp hframes
      obtain ⟨n, rfl⟩ := outgoing_config hout (by simp)
      rw [incomingAll_frame hout harrived hframe, ih hframes, receivedAll_sequenceNumber]
      rfl

end Media

end WebrtcStreamer
