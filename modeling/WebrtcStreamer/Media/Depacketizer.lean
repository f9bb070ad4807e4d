import WebrtcStreamer.Media.Packetizer

/-!
# `Media.Depacketizer` — what a receiver makes of the packets (libdatachannel's `rtpdepacketizer.cpp`, `h264rtpdepacketizer.cpp`)

The receiving side of the same library. The packets of a frame are collected in the order of their sequence
numbers, in which 0 follows 65535, until the one that is marked; `reassemble` puts the units together again,
each behind a long start sequence (`Separator::StartSequence`).
-/

namespace WebrtcStreamer

namespace Media

/-- What `reassemble` throws. -/
inductive ReassembleError
  | stapSize  -- "H264 STAP-A size is larger than payload"
  | unknownPacketization  -- "Unknown H264 RTP Packetization"
  | truncated  -- reads past the end of the packet
deriving DecidableEq

/-- A packet in the buffer, with the header at its beginning. -/
structure BufferedPacket where
  header : RtpHeader
  data : Bytes
deriving DecidableEq

/-! ## The buffer -/

/-- `sequence_cmp`: `int16_t(hb->seqNumber() - ha->seqNumber()) > 0`. -/
def sequenceLess (a b : UInt16) : Bool :=
  let d := (b - a).toNat
  decide (0 < d) && decide (d < 2 ^ 15)

/-- `mBuffer.insert`; a packet with the sequence number of one that is there is not inserted. -/
def bufferInsert (packet : BufferedPacket) : List BufferedPacket → List BufferedPacket
  | [] => [packet]
  | x :: rest =>
      if sequenceLess packet.header.seqNumber x.header.seqNumber then packet :: x :: rest
      else if sequenceLess x.header.seqNumber packet.header.seqNumber then x :: bufferInsert packet rest
      else x :: rest

/-! ## Reassembly -/

def naluLongStartCode : Bytes := [0, 0, 0, 1]

def naluTypeSTAPA : UInt8 := 24

def naluTypeFUA : UInt8 := 28

/-- `getSize() + getExtensionHeaderSize()`. -/
def rtpHeaderSize (packet : BufferedPacket) : Option ℕ :=
  if packet.header.extension then do
    let hi ← packet.data[packet.header.size + 2]?
    let lo ← packet.data[packet.header.size + 3]?
    some (packet.header.size + 4 * BigEndian.decode [hi, lo] + 4)
  else some packet.header.size

/-- The loop over the units of a STAP-A packet, with what is left of the payload. -/
def reassembleStap (frame rest : Bytes) : Except ReassembleError Bytes :=
  match rest with
  | hi :: lo :: b :: rest =>
      let naluSize := BigEndian.decode [hi, lo]
      if (b :: rest).length < naluSize then .error .stapSize
      else
        reassembleStap (frame ++ naluLongStartCode ++ (b :: rest).take naluSize) ((b :: rest).drop naluSize)
  | _ => .ok frame
termination_by rest.length
decreasing_by
  simp only [List.length_drop, List.length_cons]
  omega

/-- The local variables of the loop of `reassemble`. -/
structure Reassembly where
  nextSeqNumber : UInt16
  frame : Bytes
  continuousFragments : Bool

/-- The payload of a packet, once it is known not to be empty. -/
def reassemblePayload (s : Reassembly) (first : UInt8) (rest : Bytes) : Except ReassembleError Reassembly :=
  let nalUnitHeader := NalUnitHeader.mk first
  if nalUnitHeader.unitType = naluTypeFUA then
    match rest with
    | [] => .ok s  -- Empty FU-A
    | second :: fragment =>
        let nalUnitFragmentHeader := NalUnitFragmentHeader.mk second
        let s :=
          if nalUnitFragmentHeader.isStart then
            { s with
              frame := s.frame ++ naluLongStartCode ++ [nalUnitHeader.idc ||| nalUnitFragmentHeader.unitType]
              continuousFragments := true }
          else s
        let s := if s.continuousFragments then { s with frame := s.frame ++ fragment } else s
        .ok { s with continuousFragments := s.continuousFragments && !nalUnitFragmentHeader.isEnd }
  else
    let s := { s with continuousFragments := false }
    if nalUnitHeader.unitType = naluTypeSTAPA then do
      let frame ← reassembleStap s.frame rest
      .ok { s with frame := frame }
    else if 0 < nalUnitHeader.unitType ∧ nalUnitHeader.unitType < 24 then
      .ok { s with frame := s.frame ++ naluLongStartCode ++ first :: rest }
    else .error .unknownPacketization

/-- One packet of the loop of `reassemble`. -/
def reassemblePacket (s : Reassembly) (packet : BufferedPacket) : Except ReassembleError Reassembly :=
  let seqNumber := packet.header.seqNumber
  if seqNumber < s.nextSeqNumber then .ok s  -- Skip
  else
    let s := { s with
      -- missing packets end a fragmented unit
      continuousFragments := s.continuousFragments && !decide (s.nextSeqNumber < seqNumber)
      nextSeqNumber := seqNumber + 1 }
    match rtpHeaderSize packet with
    | none => .error .truncated
    | some headerSize =>
        let paddingSize := if packet.header.padding then (packet.data.getLast?.map UInt8.toNat).getD 0 else 0
        if packet.data.length ≤ headerSize + paddingSize then .ok s  -- Empty payload
        else
          match (packet.data.drop headerSize).take (packet.data.length - headerSize - paddingSize) with
          | [] => .ok s
          | first :: rest => reassemblePayload s first rest

/-- `H264RtpDepacketizer::reassemble` of a buffer that is not empty. -/
def reassemble (first : BufferedPacket) (rest : List BufferedPacket) : Except ReassembleError Message := do
  let s ← (first :: rest).foldlM reassemblePacket
    { nextSeqNumber := first.header.seqNumber, frame := [], continuousFragments := false }
  .ok {
    data := s.frame
    type := .binary
    frameInfo := some {
      timestamp := first.header.timestamp
      payloadType := first.header.payloadType
      timestampSeconds := some (Rounding.roundTo 53 (first.header.timestamp.toNat / 90000)) } }

/-- The frame in the buffer, if there is one. -/
def flush : List BufferedPacket → Except ReassembleError (List Message)
  | [] => .ok []
  | first :: rest => do
      let message ← reassemble first rest
      .ok [message]

/-- `VideoRtpDepacketizer::incoming`, for one message. -/
def incoming (buffer : List BufferedPacket) (message : Message) :
    Except ReassembleError (List Message × List BufferedPacket) :=
  match message.type, RtpHeader.ofBytes message.data with
  | .control, _ => .ok ([message], buffer)
  | .binary, none => .ok ([], buffer)  -- RTP packet is too small
  | .binary, some header => do
      let (earlier, buffer) ←
        match buffer with
        | [] => .ok ([], [])
        | first :: rest =>
            if first.header.timestamp ≠ header.timestamp then do
              let messages ← flush (first :: rest)
              .ok (messages, [])
            else .ok ([], first :: rest)
      let buffer := bufferInsert { header := header, data := message.data } buffer
      if header.marker then do
        let messages ← flush buffer
        .ok (earlier ++ messages, [])
      else .ok (earlier, buffer)

/-- `VideoRtpDepacketizer::incoming`, for a vector of messages. -/
def incomingAll (buffer : List BufferedPacket) : List Message →
    Except ReassembleError (List Message × List BufferedPacket)
  | [] => .ok ([], buffer)
  | message :: rest => do
      let (messages, buffer) ← incoming buffer message
      let (more, buffer) ← incomingAll buffer rest
      .ok (messages ++ more, buffer)

end Media

end WebrtcStreamer
