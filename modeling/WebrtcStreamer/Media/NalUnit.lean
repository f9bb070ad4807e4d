import WebrtcStreamer.Lib.Json
import WebrtcStreamer.Lib.Rounding

/-!
# `Media.NalUnit` — NAL units and their fragments (libdatachannel's `nalunit.hpp`, `h264rtppacketizer.cpp`)

What the packetizer of a client's video track makes of a frame: `splitFrame` cuts it at the start sequences,
`generateFragments` cuts the units that are too long for a packet.

The track is set up with `Separator::StartSequence`; units that are preceded by their length do not occur.
-/

namespace WebrtcStreamer

namespace Media

/-! ## Headers -/

/-- `NalUnitHeader`, by its byte `_first`. -/
structure NalUnitHeader where
  first : UInt8
deriving DecidableEq

namespace NalUnitHeader

def forbiddenBit (h : NalUnitHeader) : Bool := h.first >>> 7 != 0

def nri (h : NalUnitHeader) : UInt8 := h.first >>> 5 &&& 0x03

def idc (h : NalUnitHeader) : UInt8 := h.first &&& 0x60

def unitType (h : NalUnitHeader) : UInt8 := h.first &&& 0x1F

def setForbiddenBit (h : NalUnitHeader) (isSet : Bool) : NalUnitHeader :=
  ⟨(h.first &&& 0x7F) ||| (isSet.toUInt8 <<< (7 : UInt8))⟩

def setNRI (h : NalUnitHeader) (nri : UInt8) : NalUnitHeader :=
  ⟨(h.first &&& 0x9F) ||| ((nri &&& 0x03) <<< (5 : UInt8))⟩

def setUnitType (h : NalUnitHeader) (type : UInt8) : NalUnitHeader :=
  ⟨(h.first &&& 0xE0) ||| (type &&& 0x1F)⟩

end NalUnitHeader

/-- `NalUnitFragmentHeader`, by its byte `_first`. -/
structure NalUnitFragmentHeader where
  first : UInt8
deriving DecidableEq

namespace NalUnitFragmentHeader

def isStart (h : NalUnitFragmentHeader) : Bool := h.first >>> 7 != 0

def isEnd (h : NalUnitFragmentHeader) : Bool := (h.first >>> 6) &&& 0x01 != 0

def unitType (h : NalUnitFragmentHeader) : UInt8 := h.first &&& 0x1F

def setStart (h : NalUnitFragmentHeader) (isSet : Bool) : NalUnitFragmentHeader :=
  ⟨(h.first &&& 0x7F) ||| (isSet.toUInt8 <<< (7 : UInt8))⟩

def setEnd (h : NalUnitFragmentHeader) (isSet : Bool) : NalUnitFragmentHeader :=
  ⟨(h.first &&& 0xBF) ||| (isSet.toUInt8 <<< (6 : UInt8))⟩

def setReservedBit6 (h : NalUnitFragmentHeader) (isSet : Bool) : NalUnitFragmentHeader :=
  ⟨(h.first &&& 0xDF) ||| (isSet.toUInt8 <<< (5 : UInt8))⟩

def setUnitType (h : NalUnitFragmentHeader) (type : UInt8) : NalUnitFragmentHeader :=
  ⟨(h.first &&& 0xE0) ||| (type &&& 0x1F)⟩

end NalUnitFragmentHeader

/-! ## Fragments -/

/-- `NalUnitFragmentA::FragmentType`. -/
inductive FragmentType
  | start
  | middle
  | end
deriving DecidableEq

/-- `nal_type_fu_A`. -/
def nalTypeFuA : UInt8 := 28

/-- `setFragmentType`. -/
def NalUnitFragmentHeader.setFragmentType (h : NalUnitFragmentHeader) (type : FragmentType) :
    NalUnitFragmentHeader :=
  let h := h.setReservedBit6 false
  match type with
  | .start => (h.setStart true).setEnd false
  | .end => (h.setStart false).setEnd true
  | .middle => (h.setStart false).setEnd false

/-- The constructor of `NalUnitFragmentA`: indicator, header and data. -/
def nalUnitFragmentA (type : FragmentType) (forbiddenBit : Bool) (nri unitType : UInt8) (data : Bytes) : Bytes :=
  let indicator := (((NalUnitHeader.mk 0).setForbiddenBit forbiddenBit).setNRI nri).setUnitType nalTypeFuA
  let header := ((NalUnitFragmentHeader.mk 0).setFragmentType type).setUnitType unitType
  indicator.first :: header.first :: data

/-- `ceil(double(a) / b)`. -/
def ceilDiv (a b : ℕ) : ℕ :=
  ⌈Rounding.roundTo 53 (Rounding.roundTo 53 a / Rounding.roundTo 53 b)⌉₊

/-- The loop of `generateFragments`, with the data from `offset` on; a fragment takes `m + 1` bytes of it, or
    what is left. -/
def fragmentLoop (header : NalUnitHeader) (m : ℕ) (first : Bool) (rest : Bytes) : List Bytes :=
  if rest = [] then []
  else
    let type : FragmentType := if first then .start else if m + 1 < rest.length then .middle else .end
    nalUnitFragmentA type header.forbiddenBit (header.nri &&& 0x03) (header.unitType &&& 0x1F)
        (rest.take (m + 1)) ::
      fragmentLoop header m false (rest.drop (m + 1))
termination_by rest.length
decreasing_by
  have := List.length_pos_iff.mpr ‹_›
  rw [List.length_drop]
  omega

/-- `NalUnit::generateFragments`. With less than one byte left for each fragment it does not come back. -/
def NalUnit.generateFragments (nalu : Bytes) (maxFragmentSize : ℕ) : Option (List Bytes) :=
  match nalu with
  | [] => none
  | first :: payload =>
      let fragmentsCount := ceilDiv nalu.length maxFragmentSize
      match ceilDiv nalu.length fragmentsCount % 2 ^ 16 with
      -- 2 bytes for FU indicator and FU header
      | m + 3 => some (fragmentLoop ⟨first⟩ m true payload)
      | _ => none

/-- `NalUnit::GenerateFragments`. -/
def generateFragments (nalus : List Bytes) (maxFragmentSize : ℕ) : Option (List Bytes) := do
  let fragments ← nalus.mapM fun nalu =>
    if maxFragmentSize < nalu.length then NalUnit.generateFragments nalu maxFragmentSize else some [nalu]
  some fragments.flatten

/-! ## Start sequences -/

/-- `NalUnitStartSequenceMatch`. -/
inductive StartSequenceMatch
  | noMatch
  | firstZero
  | secondZero
  | thirdZero
  | shortMatch
  | longMatch
deriving DecidableEq

/-- `StartSequenceMatchSucc`, which detects short sequences and long ones. -/
def startSequenceMatchSucc : StartSequenceMatch → UInt8 → StartSequenceMatch
  | .noMatch, b => if b = 0x00 then .firstZero else .noMatch
  | .firstZero, b => if b = 0x00 then .secondZero else .noMatch
  | .secondZero, b => if b = 0x00 then .thirdZero else if b = 0x01 then .shortMatch else .noMatch
  | .thirdZero, b => if b = 0x00 then .thirdZero else if b = 0x01 then .longMatch else .noMatch
  | .shortMatch, _ => .shortMatch
  | .longMatch, _ => .longMatch

/-- The first loop of `splitFrame`: what follows the first start sequence. -/
def skipToUnit : StartSequenceMatch → Bytes → Bytes
  | _, [] => []
  | m, b :: rest =>
      match startSequenceMatchSucc m b with
      | .shortMatch | .longMatch => rest
      | m' => skipToUnit m' rest

/-- The second loop: `nalu` is what has been read from `naluStartIndex` on. -/
def splitUnits : StartSequenceMatch → Bytes → Bytes → List Bytes
  | _, nalu, [] => [nalu]
  | m, nalu, b :: rest =>
      let read := nalu ++ [b]
      match startSequenceMatchSucc m b with
      | .longMatch => read.take (read.length - 4) :: splitUnits .noMatch [] rest
      | .shortMatch => read.take (read.length - 3) :: splitUnits .noMatch [] rest
      | m' => splitUnits m' read rest

/-- `H264RtpPacketizer::splitFrame`. -/
def splitFrame (frame : Bytes) : List Bytes := splitUnits .noMatch [] (skipToUnit .noMatch frame)

/-! ## The packetizer -/

/-- `RTC_DEFAULT_MAX_FRAGMENT_SIZE`: an MTU of 1280 less the headers of RTP, UDP and IPv6. -/
def defaultMaxFragmentSize : ℕ := 1280 - 12 - 8 - 40

/-- `H264RtpPacketizer::fragment`. -/
def fragment (data : Bytes) : Option (List Bytes) := generateFragments (splitFrame data) defaultMaxFragmentSize

end Media

end WebrtcStreamer
