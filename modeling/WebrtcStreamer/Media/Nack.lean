import WebrtcStreamer.Media.Rtcp

/-!
# `Media.Nack` — what a control message asks for

Every message is complete RTCP packets, one behind the other, and a rest that is not one (`exists_rtcpPackets`).
The responder finds exactly the numbers that the NACKs among them ask for, unless one of them is too short to
name its sender and its source: the count of its fields is then computed below zero, and the loop over them
reads behind the end of the message (`requests_eq`).
-/

namespace WebrtcStreamer

namespace Media

/-! ## The bitmask -/

theorem maskedNumbers_zero (i : UInt16) : maskedNumbers i 0 = [] := by
  rw [maskedNumbers, if_pos rfl]

/-- One bit, and then the others. -/
theorem maskedNumbers_eq_append (i bitmask : UInt16) :
    maskedNumbers i bitmask =
      (if bitmask.toNat.testBit 0 then [i] else []) ++ maskedNumbers (i + 1) (bitmask >>> 1) := by
  by_cases hzero : bitmask = 0
  · subst hzero
    have hshift : (0 : UInt16) >>> 1 = 0 := rfl
    rw [hshift, maskedNumbers_zero, maskedNumbers_zero]
    rfl
  · have hbit : (bitmask &&& 0x1 = 1) ↔ bitmask.toNat.testBit 0 = true := by
      rw [← UInt16.toNat_inj, UInt16.toNat_and, Nat.testBit_zero, decide_eq_true_eq]
      exact (Nat.and_one_is_mod bitmask.toNat).congr_left
    rw [maskedNumbers, if_neg hzero]
    congr 1
    exact if_congr hbit rfl rfl

/-- The numbers of the bits that are set. -/
theorem maskedNumbers_eq {k : ℕ} {bitmask : UInt16} (h : bitmask.toNat < 2 ^ k) (i : UInt16) :
    maskedNumbers i bitmask =
      ((List.range k).filter bitmask.toNat.testBit).map fun bit => i + UInt16.ofNat bit := by
  induction k generalizing bitmask i with
  | zero =>
      have hzero : bitmask = 0 := UInt16.toNat_inj.mp (Nat.lt_one_iff.mp h)
      rw [hzero, maskedNumbers_zero]
      rfl
  | succ k ih =>
      -- One turn looks at the lowest bit, and goes on with the next number and the other bits.
      have hshift : (bitmask >>> 1).toNat = bitmask.toNat / 2 := by
        rw [UInt16.toNat_shiftRight]
        simp [Nat.shiftRight_one]
      have hlt : (bitmask >>> 1).toNat < 2 ^ k := by
        rw [hshift]
        omega
      have htest : ∀ bit, (bitmask >>> 1).toNat.testBit bit = bitmask.toNat.testBit (bit + 1) := by
        intro bit
        rw [hshift, Nat.testBit_succ]
      have hrest : (((List.range k).map Nat.succ).filter bitmask.toNat.testBit).map
          (fun bit => i + UInt16.ofNat bit) =
          ((List.range k).filter (bitmask >>> 1).toNat.testBit).map fun bit => i + 1 + UInt16.ofNat bit := by
        rw [List.filter_map, List.map_map]
        have hfun : bitmask.toNat.testBit ∘ Nat.succ = (bitmask >>> 1).toNat.testBit :=
          funext fun bit => (htest bit).symm
        rw [hfun]
        refine List.map_congr_left fun bit _ => ?_
        rw [Function.comp, Nat.succ_eq_add_one, Nat.add_comm, UInt16.ofNat_add, ← UInt16.add_assoc]
        rfl
      rw [maskedNumbers_eq_append, ih hlt, List.range_succ_eq_map, ← hrest]
      by_cases hbit : bitmask.toNat.testBit 0 = true
      · rw [if_pos hbit, List.filter_cons_of_pos hbit]
        simp
      · rw [if_neg hbit, List.filter_cons_of_neg hbit]
        rfl

/-- The number of a part and those of the sixteen behind it whose bits are set. -/
def RtcpNackPart.numbers (part : RtcpNackPart) : List UInt16 :=
  part.pid :: ((List.range 16).filter part.blp.toNat.testBit).map fun bit =>
    part.pid + 1 + UInt16.ofNat bit

theorem getSequenceNumbers_eq : RtcpNackPart.getSequenceNumbers = RtcpNackPart.numbers := by
  funext part
  rw [RtcpNackPart.getSequenceNumbers, maskedNumbers_eq part.blp.toNat_lt, RtcpNackPart.numbers]

/-! ## Packets -/

/-- A complete packet: as long as its header says. -/
structure RtcpPacket where
  header : RtcpHeader
  body : Bytes
  length_eq : 4 + body.length = header.lengthInBytes

namespace RtcpPacket

def toBytes (p : RtcpPacket) : Bytes := p.header.toBytes ++ p.body

def isNack (p : RtcpPacket) : Prop := p.header.payloadType = 205 ∧ p.header.reportCount = 1

instance (p : RtcpPacket) : Decidable p.isNack := inferInstanceAs (Decidable (_ ∧ _))

end RtcpPacket

/-- The bytes in fours. -/
def nackParts : Bytes → List RtcpNackPart
  | p₁ :: p₀ :: b₁ :: b₀ :: rest =>
      ⟨UInt16.ofNat (BigEndian.decode [p₁, p₀]), UInt16.ofNat (BigEndian.decode [b₁, b₀])⟩ :: nackParts rest
  | _ => []

/-- The numbers that a packet asks for: those of the parts behind the SSRCs, if it is a NACK. -/
def RtcpPacket.asked (p : RtcpPacket) : List UInt16 :=
  if p.isNack then (nackParts (p.body.drop 8)).flatMap RtcpNackPart.numbers else []

/-- No complete packet is at the beginning. -/
def Incomplete (tail : Bytes) : Prop := ∀ h, RtcpHeader.ofBytes tail = some h → tail.length < h.lengthInBytes

theorem RtcpHeader.ofBytes_toBytes (h : RtcpHeader) (rest : Bytes) :
    RtcpHeader.ofBytes (h.toBytes ++ rest) = some h := by
  have hlength : BigEndian.decode (BigEndian.encode 2 h.length.toNat) = h.length.toNat :=
    BigEndian.decode_encode h.length.toNat_lt
  simp only [BigEndian.encode, List.nil_append, List.cons_append] at hlength
  simp only [RtcpHeader.toBytes, BigEndian.encode, List.nil_append, List.cons_append, RtcpHeader.ofBytes,
    hlength, UInt16.ofNat_toNat]

theorem RtcpHeader.toBytes_ofBytes {bytes : Bytes} {h : RtcpHeader} (hbytes : RtcpHeader.ofBytes bytes = some h) :
    bytes = h.toBytes ++ bytes.drop 4 := by
  match bytes with
  | first :: payloadType :: l₁ :: l₀ :: rest =>
      cases hbytes
      have hlt : BigEndian.decode [l₁, l₀] < 256 ^ 2 := BigEndian.decode_lt [l₁, l₀]
      have hencode : BigEndian.encode 2 (BigEndian.decode [l₁, l₀]) = [l₁, l₀] :=
        BigEndian.encode_decode [l₁, l₀]
      rw [RtcpHeader.toBytes, UInt16.toNat_ofNat', Nat.mod_eq_of_lt (by simpa using hlt), hencode]
      rfl

@[simp] theorem RtcpHeader.length_toBytes (h : RtcpHeader) : h.toBytes.length = 4 := by
  simp [RtcpHeader.toBytes]

@[simp] theorem RtcpPacket.length_toBytes (p : RtcpPacket) : p.toBytes.length = p.header.lengthInBytes := by
  rw [RtcpPacket.toBytes, List.length_append, RtcpHeader.length_toBytes, p.length_eq]

theorem RtcpPacket.ofBytes_toBytes (p : RtcpPacket) (rest : Bytes) :
    RtcpHeader.ofBytes (p.toBytes ++ rest) = some p.header := by
  rw [RtcpPacket.toBytes, List.append_assoc, RtcpHeader.ofBytes_toBytes]

theorem RtcpHeader.four_le_lengthInBytes (h : RtcpHeader) : 4 ≤ h.lengthInBytes := by
  rw [RtcpHeader.lengthInBytes]
  omega

/-- **Every message** is complete packets and a rest that is not one. -/
theorem exists_rtcpPackets (message : Bytes) :
    ∃ (packets : List RtcpPacket) (tail : Bytes),
      message = packets.flatMap RtcpPacket.toBytes ++ tail ∧ Incomplete tail := by
  induction hn : message.length using Nat.strongRecOn generalizing message with
  | ind n ih =>
      by_cases hin : Incomplete message
      · exact ⟨[], message, rfl, hin⟩
      · simp only [Incomplete, not_forall, not_lt] at hin
        obtain ⟨h, hheader, hlength⟩ := hin
        have hfour := h.four_le_lengthInBytes
        obtain ⟨packets, tail, heq, htail⟩ :=
          ih (message.drop h.lengthInBytes).length (by rw [List.length_drop]; omega) _ rfl
        have hbody : 4 + ((message.drop 4).take (h.lengthInBytes - 4)).length = h.lengthInBytes := by
          rw [List.length_take, List.length_drop]
          omega
        refine ⟨⟨h, (message.drop 4).take (h.lengthInBytes - 4), hbody⟩ :: packets, tail, ?_, htail⟩
        have hdrop : message.drop h.lengthInBytes = (message.drop 4).drop (h.lengthInBytes - 4) := by
          rw [List.drop_drop]
          congr 1
          omega
        calc message = h.toBytes ++ message.drop 4 := RtcpHeader.toBytes_ofBytes hheader
          _ = h.toBytes ++ ((message.drop 4).take (h.lengthInBytes - 4) ++ message.drop h.lengthInBytes) := by
              rw [hdrop, List.take_append_drop]
          _ = _ := by
              rw [heq]
              simp [RtcpPacket.toBytes]

/-! ## The responder's loops -/

theorem readParts_eq_none {n : ℕ} {rest : Bytes} (h : rest.length < 4 * n) : readParts n rest = none := by
  induction n generalizing rest with
  | zero => exact absurd h (by omega)
  | succ n ih =>
      match rest with
      | p₁ :: p₀ :: b₁ :: b₀ :: rest =>
          rw [readParts, ih]
          · rfl
          · simp only [List.length_cons] at h
            omega
      | [] | [_] | [_, _] | [_, _, _] => rfl

/-- As many parts as there are bytes for. -/
theorem readParts_append {n : ℕ} {parts : Bytes} (h : parts.length = 4 * n) (rest : Bytes) :
    readParts n (parts ++ rest) = some (nackParts parts) := by
  induction n generalizing parts with
  | zero =>
      rw [List.eq_nil_of_length_eq_zero h]
      rfl
  | succ n ih =>
      match parts with
      | p₁ :: p₀ :: b₁ :: b₀ :: parts =>
          simp only [List.length_cons] at h
          have hrest := @ih parts (by omega)
          simp only [List.cons_append, readParts, hrest, nackParts, Option.map_some]
      | [] | [_] | [_, _] | [_, _, _] => simp at h <;> omega

theorem nackParts_of_length_lt {rest : Bytes} (h : rest.length < 4) : nackParts rest = [] := by
  match rest with
  | _ :: _ :: _ :: _ :: _ =>
      simp only [List.length_cons] at h
      omega
  | [] | [_] | [_, _] | [_, _, _] => rfl

/-- A packet that is too short for a part asks for nothing. -/
theorem RtcpPacket.asked_of_length_lt {p : RtcpPacket} (h : p.header.lengthInBytes < rtcpNackSize) :
    p.asked = [] := by
  have hlength := p.length_eq
  rw [rtcpNackSize] at h
  rw [RtcpPacket.asked, nackParts_of_length_lt]
  · exact ite_self _
  · rw [List.length_drop]
    omega

/-- A NACK without room for its SSRCs, and as many bytes from there on as a NACK has at least. -/
def Overread (packets : List RtcpPacket) (tail : Bytes) : Prop :=
  ∃ earlier p later, packets = earlier ++ p :: later ∧ p.isNack ∧ p.header.length < 2 ∧
    rtcpNackSize ≤ ((p :: later).flatMap RtcpPacket.toBytes ++ tail).length

theorem overread_cons {p : RtcpPacket} {packets : List RtcpPacket} {tail : Bytes} :
    Overread (p :: packets) tail ↔
      (p.isNack ∧ p.header.length < 2 ∧
        rtcpNackSize ≤ ((p :: packets).flatMap RtcpPacket.toBytes ++ tail).length) ∨ Overread packets tail := by
  constructor
  · rintro ⟨earlier, q, later, heq, hq⟩
    cases earlier with
    | nil =>
        obtain ⟨rfl, rfl⟩ := List.cons.inj heq
        exact Or.inl hq
    | cons x earlier =>
        obtain ⟨rfl, rfl⟩ := List.cons.inj heq
        exact Or.inr ⟨earlier, q, later, rfl, hq⟩
  · rintro (hp | ⟨earlier, q, later, rfl, hq⟩)
    · exact ⟨[], p, packets, rfl, hp⟩
    · exact ⟨p :: earlier, q, later, rfl, hq⟩

/-- With less left than a NACK has at least, there is nothing to find. -/
theorem not_overread_of_length_lt {packets : List RtcpPacket} {tail : Bytes}
    (h : (packets.flatMap RtcpPacket.toBytes ++ tail).length < rtcpNackSize) :
    ¬ Overread packets tail ∧ packets.flatMap RtcpPacket.asked = [] := by
  induction packets with
  | nil => exact ⟨fun ⟨_, _, _, heq, _⟩ => absurd heq (by simp), rfl⟩
  | cons p packets ih =>
      have hsplit : ((p :: packets).flatMap RtcpPacket.toBytes ++ tail).length =
          p.header.lengthInBytes + (packets.flatMap RtcpPacket.toBytes ++ tail).length := by
        rw [List.flatMap_cons, List.append_assoc, List.length_append, RtcpPacket.length_toBytes]
      obtain ⟨hover, hasked⟩ := ih (by omega)
      refine ⟨fun hcons => ?_, ?_⟩
      · rcases overread_cons.mp hcons with ⟨-, -, hlength⟩ | hrest
        · omega
        · exact hover hrest
      · rw [List.flatMap_cons, hasked, RtcpPacket.asked_of_length_lt (by omega), List.append_nil]

/-- The count of the fields is an `unsigned int`. -/
theorem RtcpHeader.le_getSeqNoCount {h : RtcpHeader} (hlength : h.length < 2) :
    2 ^ 32 - 2 ≤ h.getSeqNoCount.toNat := by
  have hlt : h.length.toNat < 2 := UInt16.lt_iff_toNat_lt.mp hlength
  simp only [RtcpHeader.getSeqNoCount, UInt32.toNat_sub, UInt16.toNat_toUInt32, UInt32.reduceToNat]
  omega

theorem RtcpHeader.getSeqNoCount_eq {h : RtcpHeader} (hlength : ¬ h.length < 2) :
    h.getSeqNoCount.toNat + 2 = h.length.toNat := by
  have hge : ¬ h.length.toNat < 2 := fun hlt => hlength (UInt16.lt_iff_toNat_lt.mpr hlt)
  have hlt := h.length.toNat_lt
  simp only [RtcpHeader.getSeqNoCount, UInt32.toNat_sub, UInt16.toNat_toUInt32, UInt32.reduceToNat]
  omega

/-- One packet of the walk, with enough left for a NACK. -/
theorem requests_cons {p : RtcpPacket} {rest : Bytes}
    (hsize : rtcpNackSize ≤ (p.toBytes ++ rest).length) (hshort : (p.toBytes ++ rest).length < 2 ^ 32) :
    requests (p.toBytes ++ rest) =
      if p.isNack ∧ p.header.length < 2 then none else (requests rest).map (p.asked ++ ·) := by
  have hdrop : (p.toBytes ++ rest).drop p.header.lengthInBytes = rest :=
    List.drop_left' (RtcpPacket.length_toBytes p)
  have hle : ¬ (p.toBytes ++ rest).length < p.header.lengthInBytes := by
    rw [List.length_append, RtcpPacket.length_toBytes]
    omega
  rw [requests, if_neg (by omega), p.ofBytes_toBytes]
  simp only [if_neg hle, hdrop]
  by_cases hnack : p.isNack
  · rw [if_neg (by rintro (h | h); exacts [h hnack.1, h hnack.2])]
    by_cases hlength : p.header.length < 2
    -- The number of parts wraps around, so the parts are read far beyond the packet.
    · rw [if_pos ⟨hnack, hlength⟩, readParts_eq_none]
      · rfl
      · have hcount := p.header.le_getSeqNoCount hlength
        rw [List.length_drop]
        omega
    · rw [if_neg (fun h => hlength h.2)]
      have hcount := p.header.getSeqNoCount_eq hlength
      have hbody := p.length_eq
      rw [RtcpHeader.lengthInBytes] at hbody
      have htwelve : (p.toBytes ++ rest).drop 12 = p.body.drop 8 ++ rest := by
        rw [RtcpPacket.toBytes, List.append_assoc, List.drop_append, RtcpHeader.length_toBytes,
          List.drop_eq_nil_of_le (by simp), List.nil_append, List.drop_append_of_le_length (by omega)]
      rw [htwelve, readParts_append (by rw [List.length_drop]; omega), RtcpPacket.asked, if_pos hnack,
        getSequenceNumbers_eq]
      cases requests rest <;> rfl
  · rw [if_pos (by rwa [RtcpPacket.isNack, not_and_or] at hnack), if_neg (fun h => hnack h.1),
      RtcpPacket.asked, if_neg hnack]
    simp

theorem requests_tail {tail : Bytes} (htail : Incomplete tail) : requests tail = some [] := by
  rw [requests]
  split_ifs with hsize
  · rfl
  · obtain ⟨a, b, c, d, rest, rfl⟩ : ∃ a b c d rest, tail = a :: b :: c :: d :: rest := by
      match tail with
      | a :: b :: c :: d :: rest => exact ⟨a, b, c, d, rest, rfl⟩
      | [] | [_] | [_, _] | [_, _, _] => exact absurd (by simp [rtcpNackSize]) hsize
    have hlt := htail _ rfl
    simp only [RtcpHeader.ofBytes, if_pos hlt]

/-- The packets, by induction on how many there are. -/
theorem requests_packets {packets : List RtcpPacket} {tail : Bytes} (htail : Incomplete tail)
    (hshort : (packets.flatMap RtcpPacket.toBytes ++ tail).length < 2 ^ 32) :
    (Overread packets tail → requests (packets.flatMap RtcpPacket.toBytes ++ tail) = none) ∧
      (¬ Overread packets tail →
        requests (packets.flatMap RtcpPacket.toBytes ++ tail) = some (packets.flatMap RtcpPacket.asked)) := by
  induction packets with
  | nil =>
      refine ⟨fun ⟨_, _, _, heq, _⟩ => absurd heq (by simp), fun _ => ?_⟩
      exact requests_tail htail
  | cons p packets ih =>
      by_cases hsize : ((p :: packets).flatMap RtcpPacket.toBytes ++ tail).length < rtcpNackSize
      · obtain ⟨hover, hasked⟩ := not_overread_of_length_lt hsize
        refine ⟨fun h => absurd h hover, fun _ => ?_⟩
        rw [requests, if_pos hsize, hasked]
      · rw [List.flatMap_cons, List.append_assoc] at hsize hshort ⊢
        obtain ⟨hover, hok⟩ := ih (by rw [List.length_append] at hshort; omega)
        rw [requests_cons (by omega) hshort, overread_cons, List.flatMap_cons, List.append_assoc]
        by_cases hp : p.isNack ∧ p.header.length < 2
        · rw [if_pos hp]
          exact ⟨fun _ => rfl, fun h => absurd (Or.inl ⟨hp.1, hp.2, by omega⟩) h⟩
        · rw [if_neg hp]
          refine ⟨fun h => ?_, fun h => ?_⟩
          · rw [hover (h.resolve_left fun h => hp ⟨h.1, h.2.1⟩)]
            rfl
          · rw [hok (fun h' => h (Or.inr h'))]
            rfl

/-- **What a control message asks for**: what its NACKs ask for, unless one of them is too short. -/
theorem requests_eq {message : Bytes} (hshort : message.length < 2 ^ 32) :
    ∃ (packets : List RtcpPacket) (tail : Bytes),
      message = packets.flatMap RtcpPacket.toBytes ++ tail ∧ Incomplete tail ∧
        (Overread packets tail → requests message = none) ∧
          (¬ Overread packets tail → requests message = some (packets.flatMap RtcpPacket.asked)) := by
  obtain ⟨packets, tail, rfl, htail⟩ := exists_rtcpPackets message
  obtain ⟨hover, hok⟩ := requests_packets htail hshort
  exact ⟨packets, tail, rfl, htail, hover, hok⟩

/-- A NACK for the numbers 1, 2 and 4. -/
theorem requests_eq_nack :
    ∃ (packets : List RtcpPacket) (tail : Bytes), Incomplete tail ∧ ¬ Overread packets tail ∧
      packets.flatMap RtcpPacket.asked = [1, 2, 4] := by
  obtain ⟨packets, tail, -, htail, hover, hok⟩ :=
    requests_eq (show [0x81, 205, 0, 3, 0, 0, 0, 1, 0, 0, 0, 1, 0, 1, 0, 5].length < 2 ^ 32 by decide)
  have hrequests : requests [0x81, 205, 0, 3, 0, 0, 0, 1, 0, 0, 0, 1, 0, 1, 0, 5] = some [1, 2, 4] := by
    decide +kernel
  have hnot : ¬ Overread packets tail := by
    intro h
    rw [hover h] at hrequests
    cases hrequests
  exact ⟨packets, tail, htail, hnot, Option.some.inj ((hok hnot).symm.trans hrequests)⟩

end Media

end WebrtcStreamer
