import WebrtcStreamer.Lib.BigEndian
import WebrtcStreamer.Media.NalUnit

/-!
# `Media.Packetizer` — RTP packets (libdatachannel's `rtp.hpp`, `rtp.cpp`, `rtppacketizer.cpp`)

The packets that a client's track makes of a frame. A packet is its bytes; `RtpHeader` is what
`reinterpret_cast` finds in the first twelve of them, with the fields in host order.

The configuration of the streamer sets neither a video orientation nor `mid`, `rid`, a playout delay or a
dependency descriptor, so that packets have no header extension. A `double` is its value (`Lib.Rounding`).
-/

namespace WebrtcStreamer

namespace Media

/-! ## Headers -/

structure RtpHeader where
  /-- `_first`: version, padding, extension and number of contributing sources. -/
  first : UInt8
  /-- `_payloadType`: marker and payload type. -/
  second : UInt8
  seqNumber : UInt16
  timestamp : UInt32
  ssrc : UInt32
deriving DecidableEq

namespace RtpHeader

/-- `sizeof(RtpHeader)`. -/
def sizeOf : ℕ := 12

/-- In memory that has just been allocated. -/
def zero : RtpHeader := ⟨0, 0, 0, 0, 0⟩

def padding (h : RtpHeader) : Bool := (h.first >>> 5) &&& 0x01 != 0

def extension (h : RtpHeader) : Bool := (h.first >>> 4) &&& 0x01 != 0

def csrcCount (h : RtpHeader) : UInt8 := h.first &&& 0x0F

def marker (h : RtpHeader) : Bool := h.second &&& 0b10000000 != 0

def payloadType (h : RtpHeader) : UInt8 := h.second &&& 0b01111111

/-- `getSize`: with the contributing sources. -/
def size (h : RtpHeader) : ℕ := sizeOf + 4 * h.csrcCount.toNat

def preparePacket (h : RtpHeader) : RtpHeader := { h with first := h.first ||| (1 <<< (7 : UInt8)) }

def setSeqNumber (h : RtpHeader) (newSeqNo : UInt16) : RtpHeader := { h with seqNumber := newSeqNo }

def setPayloadType (h : RtpHeader) (newPayloadType : UInt8) : RtpHeader :=
  { h with second := (h.second &&& 0b10000000) ||| (0b01111111 &&& newPayloadType) }

def setSsrc (h : RtpHeader) (ssrc : UInt32) : RtpHeader := { h with ssrc := ssrc }

def setMarker (h : RtpHeader) (marker : Bool) : RtpHeader :=
  { h with second := (h.second &&& 0x7F) ||| (marker.toUInt8 <<< (7 : UInt8)) }

def setTimestamp (h : RtpHeader) (i : UInt32) : RtpHeader := { h with timestamp := i }

/-- The header in memory. -/
def toBytes (h : RtpHeader) : Bytes :=
  [h.first, h.second] ++ BigEndian.encode 2 h.seqNumber.toNat ++ BigEndian.encode 4 h.timestamp.toNat ++
    BigEndian.encode 4 h.ssrc.toNat

/-- The header of a packet that is long enough for one. -/
def ofBytes : Bytes → Option RtpHeader
  | first :: second :: s₁ :: s₀ :: t₃ :: t₂ :: t₁ :: t₀ :: c₃ :: c₂ :: c₁ :: c₀ :: _ =>
      some {
        first := first
        second := second
        seqNumber := UInt16.ofNat (BigEndian.decode [s₁, s₀])
        timestamp := UInt32.ofNat (BigEndian.decode [t₃, t₂, t₁, t₀])
        ssrc := UInt32.ofNat (BigEndian.decode [c₃, c₂, c₁, c₀]) }
  | _ => none

end RtpHeader

/-! ## Messages -/

inductive MessageType
  | binary
  | control
deriving DecidableEq

structure FrameInfo where
  timestamp : UInt32
  payloadType : UInt8
  timestampSeconds : Option ℚ

/-- The conversion of a `duration<double, micro>`, here of the time of a sample in microseconds. -/
def FrameInfo.ofMicroseconds (sampleTime : UInt64) : FrameInfo where
  timestamp := 0
  payloadType := 0
  timestampSeconds := some (Rounding.roundTo 53 (Rounding.roundTo 53 sampleTime.toNat / 1000000))

structure Message where
  data : Bytes
  type : MessageType
  frameInfo : Option FrameInfo

/-- `make_message` of a packet. -/
def Message.packet (data : Bytes) : Message := { data := data, type := .binary, frameInfo := none }

/-! ## The packetizer -/

structure RtpPacketizationConfig where
  ssrc : UInt32
  cname : Bytes
  payloadType : UInt8
  clockRate : UInt32
  sequenceNumber : UInt16
  timestamp : UInt32
  startTimestamp : UInt32
deriving DecidableEq

/-- The constructor, with the two random numbers it draws. -/
def RtpPacketizationConfig.new (ssrc : UInt32) (cname : Bytes) (payloadType : UInt8) (clockRate : UInt32)
    (sequenceNumber : UInt16) (startTimestamp : UInt32) : RtpPacketizationConfig where
  ssrc := ssrc
  cname := cname
  payloadType := payloadType
  clockRate := clockRate
  sequenceNumber := sequenceNumber
  timestamp := startTimestamp
  startTimestamp := startTimestamp

/-- `getTimestampFromSeconds`: `uint32_t(int64_t(round(seconds * double(clockRate))))`. -/
def timestampFromSeconds (seconds : ℚ) (clockRate : UInt32) : UInt32 :=
  UInt32.ofNat (round (Rounding.roundTo 53 (seconds * clockRate.toNat))).toNat

/-- `RtpPacketizer::packetize`. -/
def packetize (config : RtpPacketizationConfig) (payload : Bytes) (mark : Bool) :
    Message × RtpPacketizationConfig :=
  let rtp := RtpHeader.zero.setPayloadType config.payloadType
  let rtp := rtp.setSeqNumber config.sequenceNumber
  let rtp := (rtp.setTimestamp config.timestamp).setSsrc config.ssrc
  let rtp := if mark then rtp.setMarker true else rtp
  (.packet (rtp.preparePacket.toBytes ++ payload),
    { config with sequenceNumber := config.sequenceNumber + 1 })

/-- The loop over the payloads of a message: the last one is marked. -/
def packetizeAll (config : RtpPacketizationConfig) : List Bytes → List Message × RtpPacketizationConfig
  | [] => ([], config)
  | payload :: rest =>
      let (message, config) := packetize config payload rest.isEmpty
      let (messages, config) := packetizeAll config rest
      (message :: messages, config)

/-- The timestamp that a message's frame info sets, if it has one. -/
def RtpPacketizationConfig.stamp (config : RtpPacketizationConfig) : Option FrameInfo → RtpPacketizationConfig
  | none => config
  | some info =>
      match info.timestampSeconds with
      | some seconds =>
          { config with timestamp := config.startTimestamp + timestampFromSeconds seconds config.clockRate }
      | none => { config with timestamp := info.timestamp }

/-- The frame info asks for another payload type. -/
def Message.foreign (message : Message) (config : RtpPacketizationConfig) : Bool :=
  message.frameInfo.any fun info => info.payloadType != 0 && info.payloadType != config.payloadType

/-- `RtpPacketizer::outgoing`; `none` if `fragment` does not come back. -/
def RtpPacketizer.outgoing (config : RtpPacketizationConfig) :
    List Message → Option (List Message × RtpPacketizationConfig)
  | [] => some ([], config)
  | message :: rest =>
      if message.foreign config then RtpPacketizer.outgoing config rest
      else do
        let payloads ← fragment message.data
        let (messages, config) := packetizeAll (config.stamp message.frameInfo) payloads
        let (more, config) ← RtpPacketizer.outgoing config rest
        some (messages ++ more, config)

end Media

end WebrtcStreamer
