import WebrtcStreamer.Media.Nack
import WebrtcStreamer.Media.Packets

/-!
# `Media.Report` — sender reports (libdatachannel's `rtcpsrreporter.cpp`)

Once a second, before the packets of a frame go out, the reporter sends how many packets and how many octets
of payload there have been, with those of the frame. A report is two RTCP packets in one message, a sender
report and a description of the source with its canonical name (`getSenderReport_eq`).
-/

namespace WebrtcStreamer

namespace Media

/-! ## Source descriptions -/

/-- `RtcpSdesItem::Size`. -/
def rtcpSdesItemSize (textLength : UInt8) : ℕ := textLength.toNat + 2

/-- `RtcpSdesChunk::Size`: in whole words, with a zero behind the items; their count is a `uint8_t`, but for
    the word of the SSRC. -/
def rtcpSdesChunkSize (textLengths : List UInt8) : ℕ :=
  let itemsSize := (textLengths.map rtcpSdesItemSize).sum
  let words := ((itemsSize + 1 + 3) / 4) % 2 ^ 8 + 1
  words * 4

/-- `RtcpSdes::Size`. -/
def rtcpSdesSize (lengths : List (List UInt8)) : ℕ := 4 + (lengths.map rtcpSdesChunkSize).sum

/-- The lengths of a chunk's items, as `getSize` goes through them to one of type 0. -/
def itemLengths : ℕ → Bytes → Option (List UInt8)
  | 0, _ => none
  | _ + 1, 0 :: _ => some []
  | fuel + 1, _ :: length :: rest => (itemLengths fuel (rest.drop length.toNat)).map (length :: ·)
  | _ + 1, _ => none

/-! ## The reporter -/

structure RtcpSrReporter where
  packetCount : UInt32
  payloadOctets : UInt32
  lastReportedTimestamp : UInt32
  /-- On the steady clock, in nanoseconds. -/
  lastReportTime : ℕ
deriving DecidableEq

namespace RtcpSrReporter

def new : RtcpSrReporter :=
  { packetCount := 0, payloadOctets := 0, lastReportedTimestamp := 0, lastReportTime := 0 }

def addToReport (r : RtcpSrReporter) (header : RtpHeader) (size : ℕ) : RtcpSrReporter :=
  { r with
    packetCount := r.packetCount + 1
    payloadOctets := r.payloadOctets + UInt32.ofNat (size - header.size) }

/-- `RtcpSr::Size(0)`. -/
def srSize : ℕ := 4 + 24

/-- The sender report, without report blocks. -/
def senderInfo (r : RtcpSrReporter) (ssrc : UInt32) (ntp : UInt64) (timestamp : UInt32) : Bytes :=
  (RtcpHeader.prepareHeader 200 0 (UInt16.ofNat (srSize / 4 - 1))).toBytes ++
    BigEndian.encode 4 ssrc.toNat ++ BigEndian.encode 8 ntp.toNat ++ BigEndian.encode 4 timestamp.toNat ++
    BigEndian.encode 4 r.packetCount.toNat ++ BigEndian.encode 4 r.payloadOctets.toNat

/-- `getSenderReport`; `none` if the name is too long, which `setText` throws for. -/
def getSenderReport (r : RtcpSrReporter) (config : RtpPacketizationConfig) (ntp : UInt64) (timestamp : UInt32) :
    Option Message :=
  let size := srSize + rtcpSdesSize [[UInt8.ofNat config.cname.length]]
  if 0xFF < config.cname.length then none
  else do
    -- the memory of the message is zero where nothing is written
    let item := 1 :: UInt8.ofNat config.cname.length :: config.cname
    let zeros := List.replicate (size - srSize - 4 - 4 - item.length) 0
    let lengths ← itemLengths size (item ++ zeros)
    let header :=
      RtcpHeader.prepareHeader 202 1 (UInt16.ofNat ((4 + rtcpSdesChunkSize lengths) / 4 - 1))
    some {
      data := r.senderInfo config.ssrc ntp timestamp ++
        (header.toBytes ++ (BigEndian.encode 4 config.ssrc.toNat ++ (item ++ zeros)))
      type := .control
      frameInfo := none }

/-- The loop of `outgoing`, with the timestamp of the last packet that counts. -/
def count (ssrc : UInt32) : RtcpSrReporter × UInt32 → List Message → RtcpSrReporter × UInt32
  | acc, [] => acc
  | (r, timestamp), message :: rest =>
      match message.type, RtpHeader.ofBytes message.data with
      | .control, _ | .binary, none => count ssrc (r, timestamp) rest
      | .binary, some header =>
          if header.ssrc ≠ ssrc then count ssrc (r, timestamp) rest
          else count ssrc (r.addToReport header message.data.length, header.timestamp) rest

/-- `now >= mLastReportTime + 1s`. -/
def due (r : RtcpSrReporter) (now : ℕ) : Bool := decide (r.lastReportTime + 1000000000 ≤ now)

end RtcpSrReporter

/-! ## A report -/

theorem RtcpHeader.prepareHeader_reportCount (payloadType count : UInt8) (length : UInt16) :
    (RtcpHeader.prepareHeader payloadType count length).reportCount = count &&& 0x1F := by
  have hbits : ∀ count : UInt8, ((0b10000000 &&& 0b11100000) ||| (count &&& 0b00011111)) &&& 0x1F =
      count &&& 0x1F := by
    rintro ⟨count⟩
    revert count
    decide
  exact hbits count

/-- What `getSize` finds in a chunk with one item. -/
theorem itemLengths_single {fuel : ℕ} {length : UInt8} {text : Bytes} {zeros : ℕ}
    (htext : text.length = length.toNat) (hzeros : 0 < zeros) (hfuel : 2 ≤ fuel) :
    itemLengths fuel (1 :: length :: (text ++ List.replicate zeros 0)) = some [length] := by
  obtain ⟨fuel, rfl⟩ := Nat.exists_eq_add_of_le' hfuel
  obtain ⟨zeros, rfl⟩ := Nat.exists_eq_add_of_le' hzeros
  have hdrop : (text ++ List.replicate (zeros + 1) (0 : UInt8)).drop length.toNat =
      0 :: List.replicate zeros 0 := by
    rw [← htext, List.drop_left, List.replicate_succ]
  have hitem : ∀ rest, itemLengths (fuel + 2) (1 :: length :: rest) =
      (itemLengths (fuel + 1) (rest.drop length.toNat)).map (length :: ·) := fun _ => rfl
  rw [hitem, hdrop]
  rfl

/-- **A report**: a sender report and a description of the source, each as long as its header says, and nothing
    behind them. -/
theorem getSenderReport_eq {config : RtpPacketizationConfig} (hcname : config.cname.length ≤ 255)
    (r : RtcpSrReporter) (ntp : UInt64) (timestamp : UInt32) :
    ∃ (sr sdes : RtcpPacket) (zeros : ℕ),
      r.getSenderReport config ntp timestamp =
          some { data := sr.toBytes ++ sdes.toBytes, type := .control, frameInfo := none } ∧
        sr.header.payloadType = 200 ∧ sr.header.reportCount = 0 ∧
          sr.body = BigEndian.encode 4 config.ssrc.toNat ++ BigEndian.encode 8 ntp.toNat ++
            BigEndian.encode 4 timestamp.toNat ++ BigEndian.encode 4 r.packetCount.toNat ++
              BigEndian.encode 4 r.payloadOctets.toNat ∧
            sdes.header.payloadType = 202 ∧ sdes.header.reportCount = 1 ∧ 1 ≤ zeros ∧ zeros ≤ 4 ∧
              sdes.body = BigEndian.encode 4 config.ssrc.toNat ++
                1 :: UInt8.ofNat config.cname.length :: config.cname ++ List.replicate zeros 0 := by
  have hlength : (UInt8.ofNat config.cname.length).toNat = config.cname.length := by
    rw [UInt8.toNat_ofNat']
    omega
  have hchunk : rtcpSdesChunkSize [UInt8.ofNat config.cname.length] =
      ((config.cname.length + 6) / 4 + 1) * 4 := by
    simp only [rtcpSdesChunkSize, List.map_cons, List.map_nil, List.sum_cons, List.sum_nil, rtcpSdesItemSize,
      hlength]
    omega
  have hsdes : rtcpSdesSize [[UInt8.ofNat config.cname.length]] =
      4 + ((config.cname.length + 6) / 4 + 1) * 4 := by
    simp only [rtcpSdesSize, List.map_cons, List.map_nil, List.sum_cons, List.sum_nil, hchunk, Nat.add_zero]
  -- The item with the name is followed by zeros up to the next word, one at least.
  generalize hz : (config.cname.length + 6) / 4 * 4 - config.cname.length - 2 = zeros
  have hzeros : 1 ≤ zeros ∧ zeros ≤ 4 := by omega
  have hsrlength : 4 + (BigEndian.encode 4 config.ssrc.toNat ++ BigEndian.encode 8 ntp.toNat ++
      BigEndian.encode 4 timestamp.toNat ++ BigEndian.encode 4 r.packetCount.toNat ++
        BigEndian.encode 4 r.payloadOctets.toNat).length =
      (RtcpHeader.prepareHeader 200 0 (UInt16.ofNat (RtcpSrReporter.srSize / 4 - 1))).lengthInBytes := by
    simp only [List.length_append, BigEndian.length_encode]
    rfl
  have hsdeslength : 4 + (BigEndian.encode 4 config.ssrc.toNat ++
      1 :: UInt8.ofNat config.cname.length :: config.cname ++ List.replicate zeros 0).length =
      (RtcpHeader.prepareHeader 202 1
        (UInt16.ofNat ((4 + ((config.cname.length + 6) / 4 + 1) * 4) / 4 - 1))).lengthInBytes := by
    have hwords : (4 + ((config.cname.length + 6) / 4 + 1) * 4) / 4 - 1 =
        (config.cname.length + 6) / 4 + 1 := by omega
    rw [hwords]
    simp only [List.length_append, BigEndian.length_encode, List.length_cons, List.length_replicate,
      RtcpHeader.lengthInBytes, RtcpHeader.prepareHeader, RtcpHeader.setReportCount, UInt16.toNat_ofNat']
    omega
  refine ⟨⟨_, _, hsrlength⟩, ⟨_, _, hsdeslength⟩, zeros, ?_, rfl, ?_, rfl, rfl, ?_, hzeros.1, hzeros.2, rfl⟩
  · have hfuel : 2 ≤ RtcpSrReporter.srSize + (4 + ((config.cname.length + 6) / 4 + 1) * 4) := by omega
    have hitems := itemLengths_single hlength.symm hzeros.1 hfuel
    have hcount : RtcpSrReporter.srSize + (4 + ((config.cname.length + 6) / 4 + 1) * 4) -
        RtcpSrReporter.srSize - 4 - 4 - (config.cname.length + 1 + 1) = zeros := by omega
    simp only [RtcpSrReporter.getSenderReport, if_neg (show ¬ 0xFF < config.cname.length by omega), hsdes,
      List.length_cons, hcount, List.cons_append, hitems, hchunk, bind, Option.bind, RtcpPacket.toBytes,
      RtcpSrReporter.senderInfo, List.append_assoc]
  · exact RtcpHeader.prepareHeader_reportCount 200 0 _
  · exact RtcpHeader.prepareHeader_reportCount 202 1 _

/-! ## The counts -/

/-- The octets of payload in packets whose headers have twelve bytes. -/
def octets (packets : List BufferedPacket) : ℕ := (packets.map fun p => p.data.length - 12).sum

/-- Every packet of a stream counts. -/
theorem count_packets {ssrc : UInt32} {packets : List BufferedPacket}
    (h : ∀ p ∈ packets, RtpHeader.ofBytes p.data = some p.header ∧ p.header.ssrc = ssrc ∧ p.header.size = 12)
    (r : RtcpSrReporter) (timestamp : UInt32) :
    RtcpSrReporter.count ssrc (r, timestamp) (packets.map BufferedPacket.message) =
      ({ r with
          packetCount := r.packetCount + UInt32.ofNat packets.length
          payloadOctets := r.payloadOctets + UInt32.ofNat (octets packets) },
        (packets.getLast?.map fun p => p.header.timestamp).getD timestamp) := by
  induction packets generalizing r timestamp with
  | nil =>
      simp [RtcpSrReporter.count, octets]
  | cons p packets ih =>
      obtain ⟨⟨hbytes, hssrc, hsize⟩, hpackets⟩ := List.forall_mem_cons.mp h
      have hheader : RtpHeader.ofBytes p.message.data = some p.header := hbytes
      have hcount : RtcpSrReporter.count ssrc (r, timestamp) (p.message :: packets.map BufferedPacket.message) =
          RtcpSrReporter.count ssrc (r.addToReport p.header p.data.length, p.header.timestamp)
            (packets.map BufferedPacket.message) := by
        rw [RtcpSrReporter.count, hheader]
        simp only [BufferedPacket.message, Message.packet, hssrc, ne_eq, not_true_eq_false, if_false]
      have hnumber : r.packetCount + 1 + UInt32.ofNat packets.length =
          r.packetCount + UInt32.ofNat (p :: packets).length := by
        rw [List.length_cons, UInt32.ofNat_add, UInt32.add_assoc, UInt32.add_comm 1]
        rfl
      have hoctets : r.payloadOctets + UInt32.ofNat (p.data.length - 12) + UInt32.ofNat (octets packets) =
          r.payloadOctets + UInt32.ofNat (octets (p :: packets)) := by
        rw [UInt32.add_assoc, ← UInt32.ofNat_add]
        rfl
      rw [List.map_cons, hcount, ih hpackets, RtcpSrReporter.addToReport, hsize]
      simp only [hnumber, hoctets]
      congr 1
      cases packets with
      | nil => rfl
      | cons q packets =>
          rw [List.getLast?_cons_cons, List.getLast?_eq_some_getLast (List.cons_ne_nil q packets)]
          rfl

end Media

end WebrtcStreamer
