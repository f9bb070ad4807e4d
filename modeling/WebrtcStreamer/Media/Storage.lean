import Mathlib.Data.List.DropRight
import WebrtcStreamer.Media.Nack
import WebrtcStreamer.Media.Packets

/-!
# `Media.Storage` — the packets that can be sent again (libdatachannel's `rtcpnackresponder.cpp`)

The responder keeps the packets that go out in a linked list, from the oldest to the newest, and in a map from
their sequence numbers. `emplace` does not replace what is there: the map would go on answering with an old
packet, if the numbers of two packets in the list were ever the same. As those of a stream are not, not even
where they wrap around, the storage answers with the packet of that number among the last `maxSize`
(`get_foldl`).
-/

namespace WebrtcStreamer

namespace Media

/-! ## Operations -/

namespace RtcpNackResponder

/-- `DefaultMaxSize`. -/
def defaultMaxSize : ℕ := 512

structure Element where
  packet : Message
  sequenceNumber : UInt16

structure Storage where
  maxSize : ℕ
  /-- From `oldest` on, along `next`, to `newest`. -/
  elements : List Element
  storage : List (UInt16 × Element)

namespace Storage

def new (maxSize : ℕ) : Storage := { maxSize := maxSize, elements := [], storage := [] }

def size (s : Storage) : ℕ := s.storage.length

def get (s : Storage) (sequenceNumber : UInt16) : Option Message :=
  (s.storage.lookup sequenceNumber).map Element.packet

/-- `emplace` of the map: an entry that is there stays. -/
def emplace (storage : List (UInt16 × Element)) (element : Element) : List (UInt16 × Element) :=
  if (storage.lookup element.sequenceNumber).isSome then storage
  else storage ++ [(element.sequenceNumber, element)]

/-- The packet becomes the newest one; with more in the map than `maxSize`, the oldest one goes. -/
def insert (s : Storage) (current : Element) : Storage :=
  let elements := if s.size = 0 then [current] else s.elements ++ [current]
  let storage := emplace s.storage current
  if s.maxSize < storage.length then
    match elements with
    | [] => { s with elements := elements, storage := storage }
    | oldest :: next =>
        { s with
          elements := next
          storage := storage.filter fun entry => entry.1 ≠ oldest.sequenceNumber }
  else { s with elements := elements, storage := storage }

def store (s : Storage) (packet : Message) : Storage :=
  match RtpHeader.ofBytes packet.data with
  | none => s  -- shorter than a header
  | some rtp => s.insert { packet := packet, sequenceNumber := rtp.seqNumber }

end Storage

/-- `RtcpNackResponder::incoming`, for one message: the packets it sends. -/
def incoming (s : Storage) (message : Message) : Option (List Message) :=
  match message.type with
  | .binary => some []
  | .control => (requests message.data).map fun missing => missing.filterMap s.get

/-- `RtcpNackResponder::outgoing`. -/
def outgoing (s : Storage) (messages : List Message) : Storage :=
  (messages.filter fun message => message.type ≠ .control).foldl Storage.store s

end RtcpNackResponder

open RtcpNackResponder

/-! ## Windows -/

section Window

variable {α : Type} {n : ℕ} {l : List α}

theorem rtake_append_singleton_of_lt (h : l.length < n) (x : α) : (l ++ [x]).rtake n = l.rtake n ++ [x] := by
  simp only [List.rtake, List.length_append, List.length_singleton, Nat.sub_eq_zero_of_le h,
    Nat.sub_eq_zero_of_le h.le, List.drop_zero]

theorem rtake_append_singleton_of_le (h : n ≤ l.length) (hpos : 0 < n) (x : α) :
    (l ++ [x]).rtake n = (l.rtake n ++ [x]).tail := by
  simp only [List.rtake, List.length_append, List.length_singleton, ← List.drop_one]
  rw [← List.drop_append_of_le_length (by omega), List.drop_drop]
  congr 1
  omega

theorem length_rtake : (l.rtake n).length = min n l.length := by
  rw [List.rtake, List.length_drop]
  omega

/-- A map that is the index of a list is searched as the list is. -/
theorem lookup_index {β : Type} [BEq β] (key : α → β) (b : β) (l : List α) :
    (l.map fun x => (key x, x)).lookup b = l.find? fun x => b == key x := by
  induction l with
  | nil => rfl
  | cons x l ih =>
      rw [List.map_cons, List.lookup_cons, ih, List.find?_cons]

end Window

/-! ## The invariant -/

namespace RtcpNackResponder.Storage

/-- The storage after some elements: the list holds the last of them, the map is its index. -/
structure Holds (s : Storage) (history : List Element) : Prop where
  elements : s.elements = history.rtake s.maxSize
  storage : s.storage = s.elements.map fun element => (element.sequenceNumber, element)

theorem holds_new (maxSize : ℕ) : (new maxSize).Holds [] where
  elements := (List.rtake_nil _).symm
  storage := rfl

variable {s : Storage} {history : List Element} {current : Element}

theorem Holds.get (h : s.Holds history) (number : UInt16) :
    s.get number =
      ((history.rtake s.maxSize).find? fun element => number == element.sequenceNumber).map Element.packet := by
  rw [Storage.get, h.storage, lookup_index, h.elements]

/-- A number that is not in the list is new to the map. -/
theorem Holds.emplace (h : s.Holds history)
    (hnew : ∀ element ∈ s.elements, element.sequenceNumber ≠ current.sequenceNumber) :
    Storage.emplace s.storage current =
      (s.elements ++ [current]).map fun element => (element.sequenceNumber, element) := by
  have hnone : (s.storage.lookup current.sequenceNumber).isSome = false := by
    rw [h.storage, lookup_index, Option.isSome_eq_false_iff, Option.isNone_iff_eq_none, List.find?_eq_none]
    intro element helement
    simpa using (hnew element helement).symm
  rw [Storage.emplace, if_neg (by simp [hnone]), h.storage, List.map_append]
  rfl

/-- **One packet more**, whose number none of those in the list has. -/
theorem Holds.insert (h : s.Holds history) (hpos : 0 < s.maxSize)
    (hnew : ∀ element ∈ s.elements, element.sequenceNumber ≠ current.sequenceNumber)
    (hnodup : (s.elements.map Element.sequenceNumber).Nodup) :
    (s.insert current).Holds (history ++ [current]) ∧ (s.insert current).maxSize = s.maxSize := by
  have hcount : s.elements.length = min s.maxSize history.length := by rw [h.elements, length_rtake]
  have helements : (if s.size = 0 then [current] else s.elements ++ [current]) = s.elements ++ [current] := by
    split_ifs with hsize
    · rw [Storage.size, h.storage, List.length_map] at hsize
      rw [List.eq_nil_of_length_eq_zero hsize, List.nil_append]
    · rfl
  have hstorage := h.emplace hnew
  unfold Storage.insert
  simp only [helements, hstorage, List.length_map, List.length_append, List.length_singleton]
  split_ifs with hfull
  · -- the oldest one goes
    have hle : s.maxSize ≤ history.length := by omega
    cases hs : s.elements with
    | nil =>
        rw [hs] at hcount
        simp only [List.length_nil] at hcount
        omega
    | cons oldest next =>
        have htail : (history ++ [current]).rtake s.maxSize = next ++ [current] := by
          rw [rtake_append_singleton_of_le hle hpos, ← h.elements, hs]
          rfl
        refine ⟨⟨htail.symm, ?_⟩, rfl⟩
        rw [hs] at hnew hnodup
        rw [List.map_cons, List.nodup_cons] at hnodup
        have hothers : ∀ element ∈ next ++ [current], element.sequenceNumber ≠ oldest.sequenceNumber := by
          intro element helement heq
          rcases List.mem_append.mp helement with hmem | hmem
          · exact hnodup.1 (heq ▸ List.mem_map_of_mem hmem)
          · exact hnew oldest List.mem_cons_self (heq ▸ List.mem_singleton.mp hmem ▸ rfl)
        simp only [List.cons_append, List.map_cons, ne_eq, not_true_eq_false, decide_false,
          Bool.false_eq_true, not_false_eq_true, List.filter_cons_of_neg]
        rw [List.filter_map, List.filter_eq_self.mpr]
        intro element helement
        simpa using hothers element helement
  · -- there is room
    have hlt : history.length < s.maxSize := by omega
    refine ⟨⟨?_, rfl⟩, rfl⟩
    rw [rtake_append_singleton_of_lt hlt, ← h.elements]

/-! ## Packets of a stream -/

/-- The numbers of a stream, as the packetizer gives them. -/
def Consecutive (history : List Element) : Prop :=
  ∃ first, history.map Element.sequenceNumber = sequenceNumbers first history.length

/-- Up to `2 ^ 16` numbers in a row are not the same. -/
theorem nodup_sequenceNumbers (first : UInt16) {n : ℕ} (h : n ≤ 2 ^ 16) : (sequenceNumbers first n).Nodup := by
  refine List.Nodup.map_on (fun i hi j hj heq => ?_) List.nodup_range
  have hsub : UInt16.ofNat i = UInt16.ofNat j := by
    have := congrArg (· - first) heq
    simpa [UInt16.add_comm first] using this
  have hmod := congrArg UInt16.toNat hsub
  rw [List.mem_range] at hi hj
  rw [UInt16.toNat_ofNat', UInt16.toNat_ofNat'] at hmod
  omega

theorem Consecutive.nodup_rtake (h : Consecutive history) {k : ℕ} (hk : k ≤ 2 ^ 16) :
    ((history.rtake k).map Element.sequenceNumber).Nodup := by
  obtain ⟨first, hnumbers⟩ := h
  rw [List.rtake, List.map_drop, hnumbers]
  generalize hd : history.length - k = d
  have hsplit : history.length = d + (history.length - d) := by omega
  rw [hsplit, sequenceNumbers_add, List.drop_left' (by simp [sequenceNumbers])]
  exact nodup_sequenceNumbers _ (by omega)

theorem Consecutive.of_append {more : List Element} (h : Consecutive (history ++ more)) : Consecutive history := by
  obtain ⟨first, hnumbers⟩ := h
  rw [List.map_append, List.length_append, sequenceNumbers_add] at hnumbers
  exact ⟨first, (List.append_inj hnumbers (by simp [sequenceNumbers])).1⟩

/-- **One packet more of a stream.** -/
theorem Holds.insert_consecutive (h : s.Holds history) (hpos : 0 < s.maxSize) (hmax : s.maxSize < 2 ^ 16)
    (hcons : Consecutive (history ++ [current])) :
    (s.insert current).Holds (history ++ [current]) ∧ (s.insert current).maxSize = s.maxSize := by
  have hnodup := hcons.nodup_rtake (k := s.maxSize + 1) (by omega)
  rw [List.rtake_concat_succ, ← h.elements, List.map_append, List.nodup_append] at hnodup
  refine h.insert hpos (fun element helement heq => ?_) hnodup.1
  exact hnodup.2.2 _ (List.mem_map_of_mem helement) _ (by simp) heq

/-- The element of a packet. -/
def elementOf (packet : BufferedPacket) : Element :=
  { packet := packet.message, sequenceNumber := packet.header.seqNumber }

theorem store_message {packet : BufferedPacket} (h : RtpHeader.ofBytes packet.data = some packet.header)
    (s : Storage) : s.store packet.message = s.insert (elementOf packet) := by
  have hbytes : RtpHeader.ofBytes packet.message.data = some packet.header := h
  rw [Storage.store, hbytes]
  rfl

theorem consecutive_elements {packets : List BufferedPacket} {first : UInt16}
    (h : packets.map (fun p => p.header.seqNumber) = sequenceNumbers first packets.length) :
    Consecutive (packets.map elementOf) := by
  refine ⟨first, ?_⟩
  rw [List.map_map, List.length_map, ← h]
  rfl

/-- Packets of a stream, one after the other. -/
theorem holds_foldl {packets : List BufferedPacket} {maxSize : ℕ} (hpos : 0 < maxSize)
    (hmax : maxSize < 2 ^ 16) (hbytes : ∀ p ∈ packets, RtpHeader.ofBytes p.data = some p.header)
    (hcons : Consecutive (packets.map elementOf)) :
    ((packets.map BufferedPacket.message).foldl Storage.store (new maxSize)).Holds (packets.map elementOf) ∧
      ((packets.map BufferedPacket.message).foldl Storage.store (new maxSize)).maxSize = maxSize := by
  induction packets using List.reverseRecOn with
  | nil => exact ⟨holds_new maxSize, rfl⟩
  | append_singleton packets packet ih =>
      rw [List.map_append, List.map_singleton] at hcons
      obtain ⟨hholds, hsize⟩ := ih (fun p hp => hbytes p (by simp [hp])) hcons.of_append
      rw [List.map_append, List.foldl_append, List.map_singleton, List.foldl_cons, List.foldl_nil,
        store_message (hbytes packet (by simp)), List.map_append, List.map_singleton]
      have hinsert := hholds.insert_consecutive (by omega) (by omega) hcons
      exact ⟨hinsert.1, hinsert.2.trans hsize⟩

/-- **What the storage answers with**, after any number of packets of a stream: the packet of that number among
    the last `maxSize`, byte for byte. -/
theorem get_foldl {packets : List BufferedPacket} {maxSize : ℕ} (hpos : 0 < maxSize)
    (hmax : maxSize < 2 ^ 16) (hbytes : ∀ p ∈ packets, RtpHeader.ofBytes p.data = some p.header)
    {first : UInt16} (hnumbers : packets.map (fun p => p.header.seqNumber) = sequenceNumbers first packets.length)
    (number : UInt16) :
    ((packets.map BufferedPacket.message).foldl Storage.store (new maxSize)).get number =
      ((packets.rtake maxSize).find? fun p => number == p.header.seqNumber).map BufferedPacket.message := by
  obtain ⟨hholds, hsize⟩ := holds_foldl hpos hmax hbytes (consecutive_elements hnumbers)
  have hrtake : (packets.map elementOf).rtake maxSize = (packets.rtake maxSize).map elementOf := by
    rw [List.rtake, List.rtake, List.map_drop, List.length_map]
  rw [hholds.get, hsize, hrtake, List.find?_map, Option.map_map]
  rfl

/-- Three packets, numbered across the end of the numbers. -/
def wrapping : List BufferedPacket :=
  [65535, 0, 1].map fun number =>
    let header : RtpHeader := { RtpHeader.zero with seqNumber := number }
    ⟨header, header.toBytes⟩

theorem get_foldl_wrapping :
    ((wrapping.map BufferedPacket.message).foldl Storage.store (new 2)).get 65535 = none ∧
      ((wrapping.map BufferedPacket.message).foldl Storage.store (new 2)).get 0 =
        some ⟨[0, 0, 0, 0, 0, 0, 0, 0, 0, 0, 0, 0], .binary, none⟩ :=
  have hget := @get_foldl wrapping 2 (by decide) (by decide) (by decide) 65535 (by decide)
  ⟨(hget 65535).trans rfl, (hget 0).trans rfl⟩

end RtcpNackResponder.Storage

end Media

end WebrtcStreamer
