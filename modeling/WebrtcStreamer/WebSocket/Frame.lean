import Mathlib.Data.Fin.VecNotation
import WebrtcStreamer.Lib.BigEndian
import WebrtcStreamer.Lib.Incremental
import WebrtcStreamer.Lib.Json

/-!
# `WebSocket.Frame` — frames on the wire (libdatachannel's `wstransport.cpp`)

`Frame.toBytes` is what `sendFrame` hands to the transport below; `parseFrame` reads a frame from the front of
the buffer. The lengths are those of a little-endian host, where `htons` and `htonll` reverse the bytes.

A frame that is longer than `maxFrameLength` is recognised, and truncated, as soon as so much of it is there;
`frames max` makes this a parser.
-/

namespace WebrtcStreamer

namespace WebSocket

/-! ## Opcodes and masks -/

inductive Opcode
  | continuation
  | textFrame
  | binaryFrame
  | close
  | ping
  | pong
  | unknown (code : UInt8)
deriving DecidableEq

def Opcode.code : Opcode → UInt8
  | .continuation => 0
  | .textFrame => 1
  | .binaryFrame => 2
  | .close => 8
  | .ping => 9
  | .pong => 10
  | .unknown code => code

def Opcode.ofCode (code : UInt8) : Opcode :=
  if code = 0 then .continuation
  else if code = 1 then .textFrame
  else if code = 2 then .binaryFrame
  else if code = 8 then .close
  else if code = 9 then .ping
  else if code = 10 then .pong
  else .unknown code

/-- The four bits that go on the wire. -/
def Opcode.wire (opcode : Opcode) : Opcode := .ofCode (opcode.code &&& 0x0F)

abbrev MaskingKey := Fin 4 → UInt8

/-- The exclusive or with the key, over and over. -/
def applyMask (key : MaskingKey) (data : Bytes) : Bytes :=
  data.mapIdx fun i b => b ^^^ key ⟨i % 4, Nat.mod_lt i (by decide)⟩

@[simp] theorem length_applyMask (key : MaskingKey) (data : Bytes) : (applyMask key data).length = data.length :=
  List.length_mapIdx

theorem applyMask_applyMask (key : MaskingKey) (data : Bytes) : applyMask key (applyMask key data) = data := by
  rw [applyMask, applyMask, List.mapIdx_mapIdx, List.mapIdx_eq_iff]
  intro i
  have hself : ∀ b k : UInt8, b ^^^ k ^^^ k = b := fun b k => by
    rw [UInt8.xor_assoc, UInt8.xor_self, UInt8.xor_zero]
  cases data[i]? with
  | none => rfl
  | some b => exact congrArg some (hself b _).symm

theorem take_applyMask (key : MaskingKey) (n : ℕ) (data : Bytes) :
    (applyMask key data).take n = applyMask key (data.take n) := by
  apply List.ext_getElem?
  intro i
  simp only [applyMask, List.getElem?_take, List.getElem?_mapIdx]
  split <;> rfl

/-! ## Sending -/

structure Frame where
  opcode : Opcode
  payload : Bytes
  fin : Bool
  mask : Bool
deriving DecidableEq

/-- `sendFrame`: the two first bytes and the extended length. -/
def Frame.header (frame : Frame) : Bytes :=
  let first := (frame.opcode.code &&& 0x0F) ||| (if frame.fin then 0x80 else 0)
  let mask : UInt8 := if frame.mask then 0x80 else 0
  let length := frame.payload.length
  if length < 0x7E then [first, (UInt8.ofNat length &&& 0x7F) ||| mask]
  else if length ≤ 0xFFFF then [first, 0x7E ||| mask] ++ BigEndian.encode 2 length
  else [first, 0x7F ||| mask] ++ BigEndian.encode 8 length

/-- `sendFrame`: the message for the transport below. -/
def Frame.toBytes (key : MaskingKey) (frame : Frame) : Bytes :=
  frame.header ++ if frame.mask then List.ofFn key ++ applyMask key frame.payload else frame.payload

theorem Frame.toBytes_ne_nil (key : MaskingKey) (frame : Frame) : frame.toBytes key ≠ [] := by
  have hheader : frame.header ≠ [] := by
    unfold Frame.header
    simp only
    split
    · exact List.cons_ne_nil _ _
    · split <;> exact List.cons_ne_nil _ _
  exact List.append_ne_nil_of_left_ne_nil hheader _

/-! ## Receiving -/

/-- The next `n` bytes, if they are there. -/
def readBytes (n : ℕ) (cur : Bytes) : Option (Bytes × Bytes) :=
  if cur.length < n then none else some (cur.take n, cur.drop n)

/-- `frame.length`, for the seven bits of it in the second byte. -/
def parseLength (code : UInt8) (cur : Bytes) : Option (ℕ × Bytes) :=
  if code = 0x7E then (readBytes 2 cur).map fun (bytes, cur) => (BigEndian.decode bytes, cur)
  else if code = 0x7F then (readBytes 8 cur).map fun (bytes, cur) => (BigEndian.decode bytes, cur)
  else some (code.toNat, cur)

def parseMaskingKey : Bytes → Option (MaskingKey × Bytes)
  | k₀ :: k₁ :: k₂ :: k₃ :: cur => some (![k₀, k₁, k₂, k₃], cur)
  | _ => none

/-- What `parseFrame` knows of a frame when it comes to the payload. -/
structure FrameHeader where
  opcode : Opcode
  fin : Bool
  length : ℕ
  maskingKey : Option MaskingKey

def parseHeader : Bytes → Option (FrameHeader × Bytes)
  | b₁ :: b₂ :: cur => do
      let (length, cur) ← parseLength (b₂ &&& 0x7F) cur
      let header : FrameHeader :=
        { opcode := .ofCode (b₁ &&& 0x0F), fin := b₁ &&& 0x80 != 0, length := length, maskingKey := none }
      if b₂ &&& 0x80 != 0 then do
        let (maskingKey, cur) ← parseMaskingKey cur
        some ({ header with maskingKey := some maskingKey }, cur)
      else some (header, cur)
  | _ => none

def maxControlFrameLength : ℕ := 125

def maxFrameLength (maxMessageSize : ℕ) : ℕ := max maxControlFrameLength maxMessageSize

/-- `parseFrame`; `none` where it returns 0. The frame has its payload unmasked and truncated; the length is
    that of the whole frame, and may be more than what is in the buffer. The `size_t` that the source returns is
    this length as long as it is below 2^64; `WsTransport.fits` keeps to the streams where it is. -/
def parseFrame (maxMessageSize : ℕ) (buffer : Bytes) : Option (Frame × ℕ) := do
  let (header, cur) ← parseHeader buffer
  let max := maxFrameLength maxMessageSize
  if cur.length < min header.length max then none
  else
    let payload := cur.take (if max < header.length then max else header.length)
    let frame : Frame :=
      { opcode := header.opcode
        payload := match header.maskingKey with
          | some maskingKey => applyMask maskingKey payload
          | none => payload
        fin := header.fin
        mask := header.maskingKey.isSome }
    some (frame, buffer.length - cur.length + header.length)

/-! ## More bytes -/

theorem readBytes_append {n : ℕ} {cur bytes rest : Bytes} (h : readBytes n cur = some (bytes, rest)) (more : Bytes) :
    readBytes n (cur ++ more) = some (bytes, rest ++ more) := by
  unfold readBytes at h ⊢
  split at h
  · cases h
  · obtain ⟨rfl, rfl⟩ := Prod.mk.inj (Option.some.inj h)
    have hn : n ≤ cur.length := by omega
    rw [if_neg (by rw [List.length_append]; omega), List.take_append_of_le_length hn,
      List.drop_append_of_le_length hn]

theorem parseLength_append {code : UInt8} {cur rest : Bytes} {length : ℕ}
    (h : parseLength code cur = some (length, rest)) (more : Bytes) :
    parseLength code (cur ++ more) = some (length, rest ++ more) := by
  have hmap : ∀ n, (readBytes n cur).map (fun r => (BigEndian.decode r.1, r.2)) = some (length, rest) →
      (readBytes n (cur ++ more)).map (fun r => (BigEndian.decode r.1, r.2)) = some (length, rest ++ more) := by
    intro n hn
    obtain ⟨⟨bytes, rest'⟩, hread, heq⟩ := Option.map_eq_some_iff.mp hn
    obtain ⟨rfl, rfl⟩ := Prod.mk.inj heq
    rw [readBytes_append hread]
    rfl
  unfold parseLength at h ⊢
  split
  · exact hmap 2 (by simpa only [if_pos ‹code = 0x7E›] using h)
  · rw [if_neg ‹_›] at h
    split
    · exact hmap 8 (by simpa only [if_pos ‹code = 0x7F›] using h)
    · rw [if_neg ‹_›] at h
      obtain ⟨rfl, rfl⟩ := Prod.mk.inj (Option.some.inj h)
      rfl

theorem parseMaskingKey_append {cur rest : Bytes} {key : MaskingKey}
    (h : parseMaskingKey cur = some (key, rest)) (more : Bytes) :
    parseMaskingKey (cur ++ more) = some (key, rest ++ more) := by
  match cur, h with
  | k₀ :: k₁ :: k₂ :: k₃ :: cur, h =>
      obtain ⟨rfl, rfl⟩ := Prod.mk.inj (Option.some.inj h)
      rfl

theorem parseHeader_append {buffer rest : Bytes} {header : FrameHeader}
    (h : parseHeader buffer = some (header, rest)) (more : Bytes) :
    parseHeader (buffer ++ more) = some (header, rest ++ more) := by
  match buffer, h with
  | b₁ :: b₂ :: cur, h =>
      simp only [parseHeader, List.cons_append] at h ⊢
      obtain ⟨⟨length, cur'⟩, hlength, h⟩ := Option.bind_eq_some_iff.mp h
      rw [parseLength_append hlength]
      simp only [Option.bind_eq_bind, Option.bind_some] at h ⊢
      split at h
      · obtain ⟨⟨key, cur''⟩, hkey, h⟩ := Option.bind_eq_some_iff.mp h
        obtain ⟨rfl, rfl⟩ := Prod.mk.inj (Option.some.inj h)
        rw [if_pos ‹_›, parseMaskingKey_append hkey]
        rfl
      · obtain ⟨rfl, rfl⟩ := Prod.mk.inj (Option.some.inj h)
        rw [if_neg ‹_›]

/-! ## Lengths -/

theorem length_readBytes {n : ℕ} {cur bytes rest : Bytes} (h : readBytes n cur = some (bytes, rest)) :
    cur.length = n + rest.length := by
  unfold readBytes at h
  split at h
  · cases h
  · obtain ⟨rfl, rfl⟩ := Prod.mk.inj (Option.some.inj h)
    rw [List.length_drop]
    omega

/-- The extended length takes no more than eight bytes. -/
theorem length_parseLength {code : UInt8} {cur rest : Bytes} {length : ℕ}
    (h : parseLength code cur = some (length, rest)) :
    rest.length ≤ cur.length ∧ cur.length ≤ rest.length + 8 := by
  unfold parseLength at h
  split at h
  · obtain ⟨⟨bytes, rest'⟩, hread, heq⟩ := Option.map_eq_some_iff.mp h
    obtain ⟨rfl, rfl⟩ := Prod.mk.inj heq
    have hlen := length_readBytes hread
    omega
  · split at h
    · obtain ⟨⟨bytes, rest'⟩, hread, heq⟩ := Option.map_eq_some_iff.mp h
      obtain ⟨rfl, rfl⟩ := Prod.mk.inj heq
      have hlen := length_readBytes hread
      omega
    · obtain ⟨rfl, rfl⟩ := Prod.mk.inj (Option.some.inj h)
      omega

theorem parseLength_none {code : UInt8} {cur : Bytes} (h : parseLength code cur = none) : cur.length < 8 := by
  unfold parseLength readBytes at h
  split at h
  · rw [Option.map_eq_none_iff] at h
    split at h
    · omega
    · cases h
  · split at h
    · rw [Option.map_eq_none_iff] at h
      split at h
      · assumption
      · cases h
    · cases h

theorem length_parseMaskingKey {cur rest : Bytes} {key : MaskingKey} (h : parseMaskingKey cur = some (key, rest)) :
    cur.length = rest.length + 4 := by
  match cur, h with
  | k₀ :: k₁ :: k₂ :: k₃ :: cur, h =>
      obtain ⟨-, rfl⟩ := Prod.mk.inj (Option.some.inj h)
      rfl

theorem parseMaskingKey_none {cur : Bytes} (h : parseMaskingKey cur = none) : cur.length < 4 := by
  match cur, h with
  | [], _ | [_], _ | [_, _], _ | [_, _, _], _ => simp

/-- A header has two to fourteen bytes. -/
theorem length_parseHeader {buffer rest : Bytes} {header : FrameHeader}
    (h : parseHeader buffer = some (header, rest)) :
    rest.length + 2 ≤ buffer.length ∧ buffer.length ≤ rest.length + 14 := by
  match buffer, h with
  | b₁ :: b₂ :: cur, h =>
      simp only [parseHeader] at h
      obtain ⟨⟨length, cur'⟩, hlength, h⟩ := Option.bind_eq_some_iff.mp h
      have hcur : cur'.length ≤ cur.length ∧ cur.length ≤ cur'.length + 8 := length_parseLength hlength
      simp only [List.length_cons]
      split at h
      · obtain ⟨⟨key, cur''⟩, hkey, h⟩ := Option.bind_eq_some_iff.mp h
        have hrest : cur'' = rest := (Prod.mk.inj (Option.some.inj h)).2
        have hcur' : cur'.length = cur''.length + 4 := length_parseMaskingKey hkey
        rw [hrest] at hcur'
        omega
      · have hrest : cur' = rest := (Prod.mk.inj (Option.some.inj h)).2
        rw [hrest] at hcur
        omega

theorem parseHeader_none {buffer : Bytes} (h : parseHeader buffer = none) : buffer.length < 14 := by
  match buffer, h with
  | [], _ | [_], _ => simp
  | b₁ :: b₂ :: cur, h =>
      simp only [parseHeader, List.length_cons] at h ⊢
      cases hlength : parseLength (b₂ &&& 0x7F) cur with
      | none =>
          have hcur := parseLength_none hlength
          omega
      | some parsed =>
          obtain ⟨length, cur'⟩ := parsed
          have hcur := length_parseLength hlength
          simp only [hlength, Option.bind_eq_bind, Option.bind_some] at h
          split at h
          · cases hkey : parseMaskingKey cur' with
            | none =>
                have hcur' := parseMaskingKey_none hkey
                omega
            | some parsed => simp [hkey] at h
          · cases h

/-! ## The parser -/

theorem parseFrame_eq_some {maxMessageSize n : ℕ} {buffer : Bytes} {frame : Frame} :
    parseFrame maxMessageSize buffer = some (frame, n) ↔
      ∃ header cur, parseHeader buffer = some (header, cur) ∧
        min header.length (maxFrameLength maxMessageSize) ≤ cur.length ∧
        frame =
          { opcode := header.opcode
            payload :=
              header.maskingKey.elim id applyMask (cur.take (min header.length (maxFrameLength maxMessageSize)))
            fin := header.fin
            mask := header.maskingKey.isSome } ∧
        n = buffer.length - cur.length + header.length := by
  have hmin : ∀ length max : ℕ, (if max < length then max else length) = min length max := by
    intro length max
    split <;> omega
  unfold parseFrame
  simp only [hmin, Option.bind_eq_bind, Option.bind_eq_some_iff, Prod.exists]
  constructor
  · rintro ⟨header, cur, hheader, h⟩
    split at h
    · cases h
    · obtain ⟨hframe, hn⟩ := Prod.mk.inj (Option.some.inj h)
      refine ⟨header, cur, hheader, Nat.le_of_not_lt ‹_›, ?_, hn.symm⟩
      rw [← hframe]
      cases header.maskingKey <;> rfl
  · rintro ⟨header, cur, hheader, hle, hframe, hn⟩
    refine ⟨header, cur, hheader, ?_⟩
    rw [if_neg (Nat.not_lt.mpr hle), hframe, hn]
    cases header.maskingKey <;> rfl

theorem parseFrame_append {maxMessageSize n : ℕ} {buffer : Bytes} {frame : Frame}
    (h : parseFrame maxMessageSize buffer = some (frame, n)) (more : Bytes) :
    parseFrame maxMessageSize (buffer ++ more) = some (frame, n) := by
  obtain ⟨header, cur, hheader, hle, hframe, hn⟩ := parseFrame_eq_some.mp h
  refine parseFrame_eq_some.mpr ⟨header, cur ++ more, parseHeader_append hheader more, ?_, ?_, ?_⟩
  · rw [List.length_append]
    omega
  · rw [List.take_append_of_le_length hle, hframe]
  · simp only [List.length_append, hn]
    omega

/-- The parser of frames. -/
def frames (maxMessageSize : ℕ) : Incremental.Parser UInt8 Frame where
  parse := parseFrame maxMessageSize
  positive h := by
    obtain ⟨header, cur, hheader, -, -, hn⟩ := parseFrame_eq_some.mp h
    have hlen := length_parseHeader hheader
    omega
  stable ys h := parseFrame_append h ys

/-- The buffer does not grow beyond a header and the longest payload that is not truncated. -/
theorem parseFrame_none {maxMessageSize : ℕ} {buffer : Bytes} (h : parseFrame maxMessageSize buffer = none) :
    buffer.length < 14 + maxFrameLength maxMessageSize := by
  cases hheader : parseHeader buffer with
  | none =>
      have hlen := parseHeader_none hheader
      omega
  | some parsed =>
      obtain ⟨header, cur⟩ := parsed
      have hlen := length_parseHeader hheader
      have hshort : cur.length < min header.length (maxFrameLength maxMessageSize) := by
        by_contra hle
        have hsome := parseFrame_eq_some.mpr ⟨header, cur, hheader, Nat.le_of_not_lt hle, rfl, rfl⟩
        rw [h] at hsome
        cases hsome
      omega

/-! ## What is sent is read -/

theorem flag_and {code bits : UInt8} {flag : Bool} (h : bits = 0x0F ∨ bits = 0x7F) :
    ((code &&& bits) ||| (if flag then 0x80 else 0)) &&& bits = code &&& bits := by
  obtain ⟨code⟩ := code
  rcases h with rfl | rfl <;> cases flag <;> apply UInt8.toBitVec_inj.mp <;> revert code <;> decide

theorem flag_ne_zero {code bits : UInt8} {flag : Bool} (h : bits = 0x0F ∨ bits = 0x7F) :
    (((code &&& bits) ||| (if flag then 0x80 else 0)) &&& 0x80 != 0) = flag := by
  obtain ⟨code⟩ := code
  rcases h with rfl | rfl <;> cases flag <;> revert code <;> decide

theorem readBytes_encode (k n : ℕ) (rest : Bytes) :
    readBytes k (BigEndian.encode k n ++ rest) = some (BigEndian.encode k n, rest) := by
  have hlen : (BigEndian.encode k n).length = k := BigEndian.length_encode k n
  rw [readBytes, if_neg (by rw [List.length_append]; omega), List.take_left' hlen, List.drop_left' hlen]

theorem parseMaskingKey_ofFn (key : MaskingKey) (rest : Bytes) :
    parseMaskingKey (List.ofFn key ++ rest) = some (key, rest) := by
  have hkey : ![key 0, key 1, key 2, key 3] = key := by
    funext i
    match i with
    | 0 | 1 | 2 | 3 => rfl
  rw [← hkey]
  rfl

/-- The payload as it stands on the wire. -/
def Frame.masked (key : MaskingKey) (frame : Frame) : Bytes :=
  if frame.mask then applyMask key frame.payload else frame.payload

/-- The three forms of the length: what is in the second byte, and what follows it. -/
theorem Frame.header_eq {frame : Frame} (hlen : frame.payload.length < 2 ^ 64) :
    ∃ (code : UInt8) (extended : Bytes),
      frame.header =
        ((frame.opcode.code &&& 0x0F) ||| (if frame.fin then 0x80 else 0)) ::
          ((code &&& 0x7F) ||| (if frame.mask then 0x80 else 0)) :: extended ∧
      ∀ cur, parseLength (code &&& 0x7F) (extended ++ cur) = some (frame.payload.length, cur) := by
  unfold Frame.header
  by_cases hshort : frame.payload.length < 0x7E
  -- The code is the length itself, and neither of the two that stand for a longer one.
  · have hcode : (UInt8.ofNat frame.payload.length &&& 0x7F).toNat = frame.payload.length := by
      rw [UInt8.toNat_and, UInt8.toNat_ofNat']
      show frame.payload.length % 256 &&& 2 ^ 7 - 1 = _
      rw [Nat.and_two_pow_sub_one_eq_mod]
      omega
    refine ⟨UInt8.ofNat frame.payload.length, [], ?_, ?_⟩
    · simp only [if_pos hshort]
    · intro cur
      have hne : ∀ n : UInt8, 0x7E ≤ n.toNat → UInt8.ofNat frame.payload.length &&& 0x7F ≠ n := by
        rintro n hle rfl
        omega
      rw [List.nil_append, parseLength, if_neg (hne 0x7E (by decide)), if_neg (hne 0x7F (by decide)), hcode]
  · by_cases hmedium : frame.payload.length ≤ 0xFFFF
    · refine ⟨0x7E, BigEndian.encode 2 frame.payload.length, ?_, ?_⟩
      · simp only [if_neg hshort, if_pos hmedium]
        rfl
      · intro cur
        have hdecode : BigEndian.decode (BigEndian.encode 2 frame.payload.length) = frame.payload.length :=
          BigEndian.decode_encode (by omega)
        rw [parseLength, if_pos (by decide), readBytes_encode]
        exact congrArg (fun n => some (n, cur)) hdecode
    · refine ⟨0x7F, BigEndian.encode 8 frame.payload.length, ?_, ?_⟩
      · simp only [if_neg hshort, if_neg hmedium]
        rfl
      · intro cur
        have hdecode : BigEndian.decode (BigEndian.encode 8 frame.payload.length) = frame.payload.length :=
          BigEndian.decode_encode (by omega)
        rw [parseLength, if_neg (by decide), if_pos (by decide), readBytes_encode]
        exact congrArg (fun n => some (n, cur)) hdecode

theorem parseHeader_toBytes {frame : Frame} (hlen : frame.payload.length < 2 ^ 64) (key : MaskingKey) (rest : Bytes) :
    parseHeader (frame.toBytes key ++ rest) =
      some ({ opcode := frame.opcode.wire, fin := frame.fin, length := frame.payload.length,
              maskingKey := if frame.mask then some key else none }, frame.masked key ++ rest) := by
  obtain ⟨code, extended, hheader, hlength⟩ := Frame.header_eq hlen
  rw [Frame.toBytes, hheader]
  simp only [List.cons_append, List.append_assoc, parseHeader, flag_and, true_or, or_true, flag_ne_zero, hlength,
    Option.bind_eq_bind, Option.bind_some]
  cases hmask : frame.mask with
  | true =>
      simp only [if_true, List.append_assoc, parseMaskingKey_ofFn, Frame.masked, hmask, Option.bind_some]
      rfl
  | false =>
      simp only [Bool.false_eq_true, if_false, Frame.masked, hmask]
      rfl

theorem Frame.length_masked (key : MaskingKey) (frame : Frame) :
    (frame.masked key).length = frame.payload.length := by
  unfold Frame.masked
  split
  · exact length_applyMask key _
  · rfl

theorem Frame.unmask_masked (key : MaskingKey) (frame : Frame) (n : ℕ) :
    (if frame.mask then some key else none).elim id applyMask ((frame.masked key).take n) = frame.payload.take n := by
  cases hmask : frame.mask with
  | true =>
      simp only [Frame.masked, hmask, if_true, Option.elim_some, take_applyMask, applyMask_applyMask]
  | false =>
      simp only [Frame.masked, hmask, Bool.false_eq_true, if_false, Option.elim_none, id_eq]

/-- **What is sent is read**, truncated to the length that the receiver takes. -/
theorem parseFrame_toBytes {frame : Frame} (hlen : frame.payload.length < 2 ^ 64) (key : MaskingKey)
    (maxMessageSize : ℕ) (rest : Bytes) :
    parseFrame maxMessageSize (frame.toBytes key ++ rest) =
      some ({ frame with opcode := frame.opcode.wire, payload := frame.payload.take (maxFrameLength maxMessageSize) },
        (frame.toBytes key).length) := by
  have hmasked := frame.length_masked key
  have hle : frame.payload.length ≤ (frame.toBytes key).length := by
    unfold Frame.toBytes
    split <;> simp only [List.length_append, length_applyMask] <;> omega
  refine parseFrame_eq_some.mpr ⟨_, _, parseHeader_toBytes hlen key rest, ?_, ?_, ?_⟩
  · simp only [List.length_append, hmasked]
    omega
  · have hmin : min frame.payload.length (maxFrameLength maxMessageSize) ≤ (frame.masked key).length := by
      omega
    have htake : frame.payload.take (min frame.payload.length (maxFrameLength maxMessageSize)) =
        frame.payload.take (maxFrameLength maxMessageSize) := by
      rw [Nat.min_comm, ← List.take_take, List.take_length]
    have hsome : (if frame.mask then some key else none).isSome = frame.mask := by
      cases frame.mask <;> rfl
    simp only [List.take_append_of_le_length hmin, Frame.unmask_masked, htake, hsome]
  · simp only [List.length_append, hmasked]
    omega

end WebSocket

end WebrtcStreamer
