import WebrtcStreamer.Media.Packetizer

/-!
# `Media.Rtcp` — RTCP packets (libdatachannel's `rtp.cpp`), the answers to NACKs (`rtcpnackresponder.cpp`)

A control message holds RTCP packets one behind the other, each with its length in its header. The responder
walks through them, looks for NACKs and collects the sequence numbers they ask for (`requests`). Where its
loop reads behind the end of the message, the result is `none`.
-/

namespace WebrtcStreamer

namespace Media

/-! ## Headers -/

structure RtcpHeader where
  /-- `_first`: version, padding and count of reports. -/
  first : UInt8
  payloadType : UInt8
  length : UInt16
deriving DecidableEq

namespace RtcpHeader

def reportCount (h : RtcpHeader) : UInt8 := h.first &&& 0x1F

def lengthInBytes (h : RtcpHeader) : ℕ := (1 + h.length.toNat) * 4

def setReportCount (h : RtcpHeader) (count : UInt8) : RtcpHeader :=
  { h with first := (h.first &&& 0b11100000) ||| (count &&& 0b00011111) }

/-- Version 2, no padding. -/
def prepareHeader (payloadType reportCount : UInt8) (length : UInt16) : RtcpHeader :=
  { first := 0b10000000, payloadType := payloadType, length := length : RtcpHeader }.setReportCount reportCount

def toBytes (h : RtcpHeader) : Bytes := [h.first, h.payloadType] ++ BigEndian.encode 2 h.length.toNat

def ofBytes : Bytes → Option RtcpHeader
  | first :: payloadType :: l₁ :: l₀ :: _ => some ⟨first, payloadType, UInt16.ofNat (BigEndian.decode [l₁, l₀])⟩
  | _ => none

end RtcpHeader

/-! ## NACKs -/

structure RtcpNackPart where
  pid : UInt16
  blp : UInt16
deriving DecidableEq

/-- The loop over the bitmask: `i` is the number that its lowest bit stands for. -/
def maskedNumbers (i bitmask : UInt16) : List UInt16 :=
  if bitmask = 0 then []
  else (if bitmask &&& 0x1 = 1 then [i] else []) ++ maskedNumbers (i + 1) (bitmask >>> 1)
termination_by bitmask.toNat
decreasing_by
  have hne : bitmask.toNat ≠ 0 := fun h => ‹¬ bitmask = 0› (UInt16.toNat_inj.mp h)
  simp only [UInt16.toNat_shiftRight, UInt16.reduceToNat, Nat.reduceMod, Nat.shiftRight_succ,
    Nat.shiftRight_zero]
  omega

def RtcpNackPart.getSequenceNumbers (part : RtcpNackPart) : List UInt16 :=
  part.pid :: maskedNumbers (part.pid + 1) part.blp

/-- `RtcpNack::getSeqNoCount`, an `unsigned int`. -/
def RtcpHeader.getSeqNoCount (h : RtcpHeader) : UInt32 := h.length.toUInt32 - 2

/-- `sizeof(RtcpNack)`. -/
def rtcpNackSize : ℕ := 16

/-- The loop over `nack->parts`. -/
def readParts : ℕ → Bytes → Option (List RtcpNackPart)
  | 0, _ => some []
  | n + 1, p₁ :: p₀ :: b₁ :: b₀ :: rest =>
      let part := ⟨UInt16.ofNat (BigEndian.decode [p₁, p₀]), UInt16.ofNat (BigEndian.decode [b₁, b₀])⟩
      (readParts n rest).map (part :: ·)
  | _ + 1, _ => none

/-- The loop of `RtcpNackResponder::incoming` over the packets of a control message, with what is left of it. -/
def requests (rest : Bytes) : Option (List UInt16) :=
  if rest.length < rtcpNackSize then some []
  else
    match RtcpHeader.ofBytes rest with
    | none => none
    | some header =>
        if rest.length < header.lengthInBytes then some []
        else if header.payloadType ≠ 205 ∨ header.reportCount ≠ 1 then requests (rest.drop header.lengthInBytes)
        else do
          -- behind the header there are the SSRCs of the sender and of the source
          let parts ← readParts header.getSeqNoCount.toNat (rest.drop 12)
          let more ← requests (rest.drop header.lengthInBytes)
          some (parts.flatMap RtcpNackPart.getSequenceNumbers ++ more)
termination_by rest.length
decreasing_by
  all_goals
    have hlength : ¬ rest.length < rtcpNackSize := ‹_›
    rw [rtcpNackSize] at hlength
    rw [List.length_drop, RtcpHeader.lengthInBytes]
    omega

end Media

end WebrtcStreamer
