import WebrtcStreamer.Media.Depacketizer
import WebrtcStreamer.Media.StartSequence

/-!
# `Media.Fragments` — a unit, cut into fragments and put together again

`generateFragments` computes how many fragments there are to be in `double`, which for units of fewer than
`2 ^ 53` bytes is exact. The fragments are then no longer than a packet may be, there are at least two of
them, and what `reassemble` makes of them is the unit (`restored_of_payloads`).
-/

namespace WebrtcStreamer

namespace Media

/-! ## Headers -/

section Headers

variable (h : NalUnitHeader) (type : FragmentType)

/-- The indicator of a unit's fragments. -/
def NalUnitHeader.indicator : NalUnitHeader :=
  (((NalUnitHeader.mk 0).setForbiddenBit h.forbiddenBit).setNRI (h.nri &&& 0x03)).setUnitType nalTypeFuA

/-- The header of a unit's fragment. -/
def NalUnitHeader.fragmentHeader : NalUnitFragmentHeader :=
  ((NalUnitFragmentHeader.mk 0).setFragmentType type).setUnitType (h.unitType &&& 0x1F)

theorem NalUnitHeader.indicator_unitType : h.indicator.unitType = nalTypeFuA := by
  obtain ⟨⟨first⟩⟩ := h
  revert first
  decide

theorem NalUnitHeader.indicator_idc : h.indicator.idc = h.idc := by
  obtain ⟨⟨first⟩⟩ := h
  revert first
  decide

theorem NalUnitHeader.fragmentHeader_isStart : (h.fragmentHeader type).isStart = decide (type = .start) := by
  obtain ⟨⟨first⟩⟩ := h
  revert first
  cases type <;> decide

theorem NalUnitHeader.fragmentHeader_isEnd : (h.fragmentHeader type).isEnd = decide (type = .end) := by
  obtain ⟨⟨first⟩⟩ := h
  revert first
  cases type <;> decide

theorem NalUnitHeader.fragmentHeader_unitType : (h.fragmentHeader type).unitType = h.unitType := by
  obtain ⟨⟨first⟩⟩ := h
  revert first
  cases type <;> decide

/-- The forbidden bit is what the fragments do not carry over. -/
theorem NalUnitHeader.idc_or_unitType (hbit : h.forbiddenBit = false) : h.idc ||| h.unitType = h.first := by
  obtain ⟨⟨first⟩⟩ := h
  revert first
  decide

end Headers

/-! ## The number of fragments -/

/-- What is computed in `double` is the ceiling of the quotient. -/
theorem ceilDiv_le_iff {a b n : ℕ} (ha : a < 2 ^ 53) (hb : b ≤ 2 ^ 53) (hpos : 0 < b) :
    ceilDiv a b ≤ n ↔ a ≤ n * b := by
  unfold ceilDiv
  rw [Rounding.roundTo_natCast (by norm_num) ha.le, Rounding.roundTo_natCast (by norm_num) hb,
    Rounding.ceil_roundTo_div (by norm_num) ha, Nat.ceil_le, div_le_iff₀ (by exact_mod_cast hpos)]
  exact_mod_cast Iff.rfl

/-- **A unit that is too long becomes two fragments or more**, none of them too long. -/
theorem NalUnit.generateFragments_some {first : UInt8} {payload : Bytes} {maxFragmentSize : ℕ}
    (hmax : 4 ≤ maxFragmentSize) (hmax16 : maxFragmentSize < 2 ^ 16)
    (hlong : maxFragmentSize < (first :: payload).length) (hfits : (first :: payload).length < 2 ^ 53) :
    ∃ m, NalUnit.generateFragments (first :: payload) maxFragmentSize =
        some (fragmentLoop ⟨first⟩ m true payload) ∧
      m + 3 ≤ maxFragmentSize ∧ m + 1 < payload.length := by
  rw [List.length_cons] at hlong hfits
  have hcount : ∀ n, ceilDiv (payload.length + 1) maxFragmentSize ≤ n ↔
      payload.length + 1 ≤ n * maxFragmentSize :=
    fun n => ceilDiv_le_iff hfits (by omega) (by omega)
  -- The unit is cut in as few fragments as can be, two at least, and these are about equally long.
  generalize hc : ceilDiv (payload.length + 1) maxFragmentSize = count at hcount
  have htwo : 2 ≤ count := by
    by_contra hlt
    have := (hcount 1).mp (by omega)
    omega
  have hcountle : count ≤ payload.length / 2 := by
    rw [hcount]
    have : payload.length / 2 * 4 ≤ payload.length / 2 * maxFragmentSize := Nat.mul_le_mul_left _ hmax
    omega
  have hmaxcount : payload.length + 1 ≤ count * maxFragmentSize := (hcount count).mp le_rfl
  have hsize : ∀ n, ceilDiv (payload.length + 1) count ≤ n ↔ payload.length + 1 ≤ n * count :=
    fun n => ceilDiv_le_iff hfits (by omega) (by omega)
  generalize hs : ceilDiv (payload.length + 1) count = size at hsize
  have hsizele : size ≤ maxFragmentSize := by
    rw [hsize, Nat.mul_comm]
    exact hmaxcount
  -- With its indicator and header, a fragment holds at least one byte of the payload, and the first one not all.
  have hsizegt : 2 < size := by
    by_contra hle
    have := (hsize 2).mp (by omega)
    omega
  have hhalf : size ≤ (payload.length + 2) / 2 := by
    rw [hsize]
    have : (payload.length + 2) / 2 * 2 ≤ (payload.length + 2) / 2 * count := Nat.mul_le_mul_left _ htwo
    omega
  obtain ⟨m, rfl⟩ := Nat.exists_eq_add_of_le' hsizegt
  refine ⟨m, ?_, hsizele, by omega⟩
  simp only [NalUnit.generateFragments, List.length_cons, hc, hs]
  rw [Nat.mod_eq_of_lt (by omega)]

/-! ## The loop over the fragments -/

theorem fragmentLoop_nil (h : NalUnitHeader) (m : ℕ) (first : Bool) : fragmentLoop h m first [] = [] := by
  rw [fragmentLoop, if_pos rfl]

/-- One turn of the loop. -/
theorem fragmentLoop_eq (h : NalUnitHeader) (m : ℕ) (first : Bool) {rest : Bytes} (hrest : rest ≠ []) :
    fragmentLoop h m first rest =
      (h.indicator.first ::
        (h.fragmentHeader (if first then .start else if m + 1 < rest.length then .middle else .end)).first ::
          rest.take (m + 1)) ::
        fragmentLoop h m false (rest.drop (m + 1)) := by
  rw [fragmentLoop, if_neg hrest]
  rfl

/-- Every fragment has two bytes of its own, at least one of the unit and at most `m + 1`. -/
theorem length_fragment {h : NalUnitHeader} {m : ℕ} {first : Bool} {rest : Bytes} :
    ∀ f ∈ fragmentLoop h m first rest, 3 ≤ f.length ∧ f.length ≤ m + 3 := by
  induction hn : rest.length using Nat.strongRecOn generalizing first rest with
  | ind n ih =>
      intro f hf
      by_cases hrest : rest = []
      · rw [hrest, fragmentLoop_nil] at hf
        exact absurd hf (by simp)
      · have hpos := List.length_pos_iff.mpr hrest
        rw [fragmentLoop_eq h m first hrest] at hf
        rcases List.mem_cons.mp hf with rfl | hf
        · simp only [List.length_cons, List.length_take]
          omega
        · refine ih _ ?_ rfl f hf
          rw [List.length_drop]
          omega

/-! ## Reassembly -/

/-- The payload of a packet in the loop of `reassemble`. -/
def Reassembly.feed (s : Reassembly) : Bytes → Except ReassembleError Reassembly
  | [] => .ok s
  | first :: rest => reassemblePayload s first rest

/-- A fragment: the first one opens a unit, the last one closes it, and each adds its data. -/
theorem Reassembly.feed_fragment (s : Reassembly) (h : NalUnitHeader) (type : FragmentType) (data : Bytes)
    (hs : type = .start ∨ s.continuousFragments = true) :
    s.feed (h.indicator.first :: (h.fragmentHeader type).first :: data) =
      .ok { s with
        frame := s.frame ++ (if type = .start then naluLongStartCode ++ [h.idc ||| h.unitType] else []) ++ data
        continuousFragments := !decide (type = .end) } := by
  have hind : NalUnitHeader.mk h.indicator.first = h.indicator := rfl
  have hhdr : NalUnitFragmentHeader.mk (h.fragmentHeader type).first = h.fragmentHeader type := rfl
  simp only [Reassembly.feed, reassemblePayload, hind, hhdr, h.indicator_unitType, h.indicator_idc,
    h.fragmentHeader_isStart, h.fragmentHeader_isEnd, h.fragmentHeader_unitType]
  cases type with
  | start => simp [nalTypeFuA, naluTypeFUA]
  | middle | «end» =>
      have hc : s.continuousFragments = true := hs.resolve_left (by simp)
      simp [nalTypeFuA, naluTypeFUA, hc]

/-- **The fragments behind the first** add what they hold, and the last one of them closes the unit. -/
theorem Reassembly.feed_fragmentLoop (h : NalUnitHeader) (m : ℕ) :
    ∀ (rest : Bytes) (s : Reassembly), rest ≠ [] → s.continuousFragments = true →
      (fragmentLoop h m false rest).foldlM Reassembly.feed s =
        .ok { s with frame := s.frame ++ rest, continuousFragments := false } := by
  intro rest
  induction hn : rest.length using Nat.strongRecOn generalizing rest with
  | ind n ih =>
      intro s hrest hs
      have hpos := List.length_pos_iff.mpr hrest
      rw [fragmentLoop_eq h m false hrest, List.foldlM_cons, s.feed_fragment h _ _ (.inr hs)]
      by_cases hmore : m + 1 < rest.length
      · have hdrop : rest.drop (m + 1) ≠ [] := by
          intro hnil
          have := List.drop_eq_nil_iff.mp hnil
          omega
        simp only [if_neg Bool.false_ne_true, if_pos hmore]
        refine (ih _ ?_ _ rfl _ hdrop ?_).trans ?_
        · rw [List.length_drop]
          omega
        · rfl
        · simp
      · have hdrop : rest.drop (m + 1) = [] := List.drop_eq_nil_of_le (by omega)
        have htake : rest.take (m + 1) = rest := List.take_of_length_le (by omega)
        simp only [if_neg Bool.false_ne_true, if_neg hmore, hdrop, htake, fragmentLoop_nil]
        simp [pure, Except.pure, bind, Except.bind]

/-! ## Units -/

/-- The payloads that a unit becomes. -/
def payloads (maxFragmentSize : ℕ) (nalu : Bytes) : Option (List Bytes) :=
  if maxFragmentSize < nalu.length then NalUnit.generateFragments nalu maxFragmentSize else some [nalu]

/-- A unit that a receiver gets back: one that is cut has not set the forbidden bit, one that is not cut is of
    a type that a packet can hold. -/
def Transmittable (maxFragmentSize : ℕ) : Bytes → Prop
  | [] => True
  | first :: payload =>
      if maxFragmentSize < (first :: payload).length then (NalUnitHeader.mk first).forbiddenBit = false
      else 0 < (NalUnitHeader.mk first).unitType ∧ (NalUnitHeader.mk first).unitType < 24

/-- What the receiver makes of a unit; of an empty one it makes nothing. -/
def restored : Bytes → Bytes
  | [] => []
  | first :: payload => naluLongStartCode ++ first :: payload

section Units

variable {maxFragmentSize : ℕ} (hmax : 4 ≤ maxFragmentSize) (hmax16 : maxFragmentSize < 2 ^ 16)
include hmax hmax16

/-- **A unit becomes payloads that fit.** -/
theorem payloads_some {nalu : Bytes} (hlength : nalu.length < 2 ^ 53) :
    ∃ ps, payloads maxFragmentSize nalu = some ps ∧ ps ≠ [] ∧ ∀ p ∈ ps, p.length ≤ maxFragmentSize := by
  unfold payloads
  by_cases hlong : maxFragmentSize < nalu.length
  · obtain ⟨first, payload, rfl⟩ := List.exists_cons_of_length_pos (Nat.zero_lt_of_lt hlong)
    obtain ⟨m, hgen, hm, hpayload⟩ := NalUnit.generateFragments_some hmax hmax16 hlong hlength
    have hne : payload ≠ [] := by
      rintro rfl
      exact absurd hpayload (by simp)
    refine ⟨_, by rw [if_pos hlong, hgen], by simp [fragmentLoop_eq ⟨first⟩ m true hne], fun p hp => ?_⟩
    have := (length_fragment p hp).2
    omega
  · refine ⟨[nalu], if_neg hlong, by simp, fun p hp => ?_⟩
    rw [List.mem_singleton.mp hp]
    omega

/-- **A unit goes through**: its payloads are put together to the unit again. -/
theorem restored_of_payloads {nalu : Bytes} (hlength : nalu.length < 2 ^ 53)
    (h : Transmittable maxFragmentSize nalu) {ps : List Bytes} (hps : payloads maxFragmentSize nalu = some ps)
    {s : Reassembly} (hs : s.continuousFragments = false) :
    ps.foldlM Reassembly.feed s = .ok { s with frame := s.frame ++ restored nalu } := by
  unfold payloads at hps
  cases nalu with
  -- Of an empty unit, only the start sequence arrives.
  | nil =>
      rw [if_neg (by simp)] at hps
      cases hps
      simp [Reassembly.feed, restored, pure, Except.pure, bind, Except.bind]
  | cons first payload =>
      simp only [Transmittable] at h
      by_cases hlong : maxFragmentSize < (first :: payload).length
      · rw [if_pos hlong] at hps h
        obtain ⟨m, hgen, -, hpayload⟩ := NalUnit.generateFragments_some hmax hmax16 hlong hlength
        obtain rfl := Option.some.inj (hgen.symm.trans hps)
        have hne : payload ≠ [] := by
          rintro rfl
          exact absurd hpayload (by simp)
        have hdrop : payload.drop (m + 1) ≠ [] := by
          intro hnil
          have := List.drop_eq_nil_iff.mp hnil
          omega
        rw [fragmentLoop_eq ⟨first⟩ m true hne, List.foldlM_cons, if_pos rfl,
          s.feed_fragment ⟨first⟩ .start _ (.inl rfl)]
        refine (Reassembly.feed_fragmentLoop ⟨first⟩ m _ _ hdrop rfl).trans ?_
        simp [NalUnitHeader.idc_or_unitType _ h, restored, hs]
      · rw [if_neg hlong] at hps h
        cases hps
        obtain ⟨hpos, hlt⟩ := h
        -- A packet with one unit is told by the type of the unit, which is neither of the two others.
        have hfua : (NalUnitHeader.mk first).unitType ≠ naluTypeFUA := by
          rintro heq
          rw [heq] at hlt
          exact absurd hlt (by decide)
        have hstap : (NalUnitHeader.mk first).unitType ≠ naluTypeSTAPA := by
          rintro heq
          rw [heq] at hlt
          exact absurd hlt (by decide)
        simp only [List.foldlM_cons, List.foldlM_nil, Reassembly.feed, reassemblePayload, if_neg hfua,
          if_neg hstap, if_pos (And.intro hpos hlt), restored, ← List.append_assoc, hs]
        rfl

/-! ## Frames -/

omit hmax hmax16 in
theorem generateFragments_cons (nalu : Bytes) (nalus : List Bytes) :
    generateFragments (nalu :: nalus) maxFragmentSize =
      (payloads maxFragmentSize nalu).bind fun ps =>
        (generateFragments nalus maxFragmentSize).map (ps ++ ·) := by
  have heq : ∀ nalus, generateFragments nalus maxFragmentSize =
      (nalus.mapM (payloads maxFragmentSize)).map List.flatten := by
    intro nalus
    rw [Option.map_eq_bind]
    rfl
  rw [heq, heq, List.mapM_cons]
  cases payloads maxFragmentSize nalu with
  | none => rfl
  | some ps =>
      cases nalus.mapM (payloads maxFragmentSize) <;> rfl

theorem generateFragments_some {nalus : List Bytes} (hlength : ∀ nalu ∈ nalus, nalu.length < 2 ^ 53) :
    ∃ ps, generateFragments nalus maxFragmentSize = some ps ∧ (nalus ≠ [] → ps ≠ []) ∧
      ∀ p ∈ ps, p.length ≤ maxFragmentSize := by
  induction nalus with
  | nil => exact ⟨[], rfl, fun h => absurd rfl h, by simp⟩
  | cons nalu nalus ih =>
      obtain ⟨hnalu, hnalus⟩ := List.forall_mem_cons.mp hlength
      obtain ⟨ps, hps, hne, hfit⟩ := payloads_some hmax hmax16 hnalu
      obtain ⟨more, hmore, -, hmorefit⟩ := ih hnalus
      refine ⟨ps ++ more, by rw [generateFragments_cons, hps, hmore]; rfl, fun _ => by simp [hne], ?_⟩
      intro p hp
      exact (List.mem_append.mp hp).elim (hfit p) (hmorefit p)

theorem restored_of_generateFragments {nalus : List Bytes} (hlength : ∀ nalu ∈ nalus, nalu.length < 2 ^ 53)
    (h : ∀ nalu ∈ nalus, Transmittable maxFragmentSize nalu) {ps : List Bytes}
    (hps : generateFragments nalus maxFragmentSize = some ps) {s : Reassembly}
    (hs : s.continuousFragments = false) :
    ps.foldlM Reassembly.feed s = .ok { s with frame := s.frame ++ nalus.flatMap restored } := by
  induction nalus generalizing ps s with
  | nil =>
      cases hps
      simp [pure, Except.pure]
  | cons nalu nalus ih =>
      obtain ⟨hnalu, hnalus⟩ := List.forall_mem_cons.mp hlength
      obtain ⟨hfirst, hrest⟩ := List.forall_mem_cons.mp h
      obtain ⟨ps', hps', -, -⟩ := payloads_some hmax hmax16 hnalu
      obtain ⟨more, hmore, -, -⟩ := generateFragments_some hmax hmax16 hnalus
      rw [generateFragments_cons, hps', hmore] at hps
      cases hps
      rw [List.foldlM_append, restored_of_payloads hmax hmax16 hnalu hfirst hps' hs]
      refine (ih hnalus hrest hmore (s := { s with frame := s.frame ++ restored nalu }) hs).trans ?_
      simp

end Units

/-- The payloads of a frame fit into packets, and there is at least one. -/
theorem fragment_some {data : Bytes} (hlength : data.length < 2 ^ 53) :
    ∃ ps, fragment data = some ps ∧ ps ≠ [] ∧ ∀ p ∈ ps, p.length ≤ defaultMaxFragmentSize := by
  obtain ⟨ps, hps, hne, hfit⟩ : ∃ ps, generateFragments (splitFrame data) defaultMaxFragmentSize = some ps ∧
      (splitFrame data ≠ [] → ps ≠ []) ∧ ∀ p ∈ ps, p.length ≤ defaultMaxFragmentSize :=
    generateFragments_some (by decide) (by decide) fun nalu h => (length_le_of_mem_splitFrame h).trans_lt hlength
  exact ⟨ps, hps, hne (splitFrame_ne_nil data), hfit⟩

/-- **A frame goes through**: its payloads are put together to its units, each behind a long start sequence. -/
theorem restored_of_fragment {data : Bytes} (hlength : data.length < 2 ^ 53)
    (h : ∀ nalu ∈ splitFrame data, Transmittable defaultMaxFragmentSize nalu) {ps : List Bytes}
    (hps : fragment data = some ps) {s : Reassembly} (hs : s.continuousFragments = false) :
    ps.foldlM Reassembly.feed s = .ok { s with frame := s.frame ++ (splitFrame data).flatMap restored } :=
  restored_of_generateFragments (by decide) (by decide)
    (fun nalu h => (length_le_of_mem_splitFrame h).trans_lt hlength) h hps hs

end Media

end WebrtcStreamer
