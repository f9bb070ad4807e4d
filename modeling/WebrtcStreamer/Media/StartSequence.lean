import WebrtcStreamer.Media.NalUnit

/-!
# `Media.StartSequence` — where `splitFrame` cuts a frame

The matcher runs through the zeros before a start sequence, of which there may be more than the sequence
needs. What it has seen of the current unit determines its state (`matched`): the zeros at the end count,
up to three.

`splitFrame_eq_iff` says for every frame what comes out: the units of its byte stream, each cut from the next
at the longest start sequence that ends there, or one empty unit when there is no start sequence at all.
-/

namespace WebrtcStreamer

namespace Media

/-! ## Byte streams -/

/-- `00 00 00 01` or `00 00 01`. -/
def startSequence (long : Bool) : Bytes := List.replicate (if long then 3 else 2) 0 ++ [1]

/-- Units, each behind its start sequence. -/
def byteStream : List (Bool × Bytes) → Bytes
  | [] => []
  | (long, nalu) :: rest => startSequence long ++ nalu ++ byteStream rest

/-- The number of zeros that the bytes end with. -/
def zerosAtEnd (p : Bytes) : ℕ := (p.reverse.takeWhile (· == 0)).length

/-- No start sequence occurs in the bytes. -/
def Unbroken (p : Bytes) : Prop := ¬ [0, 0, 1] <:+: p

/-- A unit and those that follow it can be told apart: no start sequence within a unit, and no zero before a
    short one, which would belong to it. -/
def Separated : Bytes → List (Bool × Bytes) → Prop
  | nalu, [] => Unbroken nalu
  | nalu, (long, next) :: rest =>
      Unbroken nalu ∧ (long = false → zerosAtEnd nalu = 0) ∧ Separated next rest

/-! ## Zeros -/

@[simp] theorem zerosAtEnd_nil : zerosAtEnd [] = 0 := rfl

theorem zerosAtEnd_snoc (p : Bytes) (b : UInt8) :
    zerosAtEnd (p ++ [b]) = if b = 0 then zerosAtEnd p + 1 else 0 := by
  unfold zerosAtEnd
  rw [List.reverse_append, List.reverse_singleton, List.singleton_append, List.takeWhile_cons]
  by_cases hb : b = 0
  · rw [if_pos (by rw [hb]; rfl), if_pos hb, List.length_cons]
  · rw [if_neg (by simpa using hb), if_neg hb]
    rfl

theorem zerosAtEnd_append_zeros (p : Bytes) (k : ℕ) :
    zerosAtEnd (p ++ List.replicate k 0) = zerosAtEnd p + k := by
  induction k with
  | zero => simp
  | succ k ih =>
      rw [List.replicate_succ', ← List.append_assoc, zerosAtEnd_snoc, if_pos rfl, ih]
      rfl

/-- Bytes that end with zeros are something before those zeros. -/
theorem exists_append_zeros {p : Bytes} {k : ℕ} (h : k ≤ zerosAtEnd p) :
    ∃ q, p = q ++ List.replicate k 0 := by
  induction k with
  | zero => exact ⟨p, by simp⟩
  | succ k ih =>
      obtain ⟨q, rfl⟩ := ih (by omega)
      rw [zerosAtEnd_append_zeros] at h
      induction q using List.reverseRecOn with
      | nil => exact absurd h (by simp)
      | append_singleton q b _ =>
          rw [zerosAtEnd_snoc] at h
          split_ifs at h with hb
          · subst hb
            refine ⟨q, ?_⟩
            rw [List.replicate_succ, List.append_assoc]
            rfl
          · omega

theorem Unbroken.of_append {p q : Bytes} (h : Unbroken (p ++ q)) : Unbroken p :=
  fun hin => h (hin.trans (List.infix_append' [] p q))

theorem not_unbroken_of_zeros {p rest : Bytes} (h : 2 ≤ zerosAtEnd p) : ¬ Unbroken (p ++ 1 :: rest) := by
  obtain ⟨q, rfl⟩ := exists_append_zeros h
  intro hu
  exact hu ⟨q, rest, by simp [List.replicate_succ]⟩

/-- What follows breaks nothing, as long as it is zeros. -/
theorem Unbroken.append_zeros {p : Bytes} (h : Unbroken p) (k : ℕ) : Unbroken (p ++ List.replicate k 0) := by
  induction k with
  | zero => simpa using h
  | succ k ih =>
      rw [List.replicate_succ', ← List.append_assoc]
      intro hin
      rcases List.infix_concat_iff.mp hin with hend | hin
      · -- a start sequence does not end with a zero
        obtain ⟨q, hq⟩ := hend
        have hlast := congrArg List.getLast? hq
        rw [List.getLast?_append, List.getLast?_append] at hlast
        exact absurd hlast (by simp)
      · exact ih hin

/-! ## The matcher -/

/-- The state of the matcher behind bytes in which it has not found anything. -/
def matched (p : Bytes) : StartSequenceMatch :=
  match zerosAtEnd p with
  | 0 => .noMatch
  | 1 => .firstZero
  | 2 => .secondZero
  | _ + 3 => .thirdZero

/-- **One byte**: a one behind two zeros or more ends a start sequence, as long a one as there can be. -/
theorem startSequenceMatchSucc_matched (p : Bytes) (b : UInt8) :
    startSequenceMatchSucc (matched p) b =
      if b = 1 ∧ zerosAtEnd p = 2 then .shortMatch
      else if b = 1 ∧ 3 ≤ zerosAtEnd p then .longMatch
      else matched (p ++ [b]) := by
  unfold matched
  rw [zerosAtEnd_snoc]
  by_cases hzero : b = 0
  · subst hzero
    rcases hz : zerosAtEnd p with _ | _ | _ | n <;> simp [startSequenceMatchSucc]
  · by_cases hone : b = 1
    · subst hone
      rcases hz : zerosAtEnd p with _ | _ | _ | n <;> simp [startSequenceMatchSucc]
    · rcases hz : zerosAtEnd p with _ | _ | _ | n <;> simp [startSequenceMatchSucc, hzero, hone]

theorem matched_ne_match (p : Bytes) : matched p ≠ .shortMatch ∧ matched p ≠ .longMatch := by
  unfold matched
  split <;> simp

/-- The first loop, at a byte that ends a start sequence or does not. -/
theorem skipToUnit_cons (p : Bytes) (b : UInt8) (rest : Bytes) :
    skipToUnit (matched p) (b :: rest) =
      if b = 1 ∧ 2 ≤ zerosAtEnd p then rest else skipToUnit (matched (p ++ [b])) rest := by
  rw [skipToUnit, startSequenceMatchSucc_matched]
  have hne := matched_ne_match (p ++ [b])
  by_cases hshort : b = 1 ∧ zerosAtEnd p = 2
  · rw [if_pos hshort, if_pos ⟨hshort.1, by omega⟩]
  · rw [if_neg hshort]
    by_cases hlong : b = 1 ∧ 3 ≤ zerosAtEnd p
    · rw [if_pos hlong, if_pos ⟨hlong.1, by omega⟩]
    · rw [if_neg hlong, if_neg (fun h => (lt_or_eq_of_le h.2).elim (fun h3 => hlong ⟨h.1, h3⟩)
        (fun h2 => hshort ⟨h.1, h2.symm⟩))]
      cases hm : matched (p ++ [b]) <;> simp_all

/-- The second loop, likewise: the unit ends before the zeros of the start sequence, three at most. -/
theorem splitUnits_cons (p : Bytes) (b : UInt8) (rest : Bytes) :
    splitUnits (matched p) p (b :: rest) =
      if b = 1 ∧ 2 ≤ zerosAtEnd p then
        p.take (p.length - min 3 (zerosAtEnd p)) :: splitUnits .noMatch [] rest
      else splitUnits (matched (p ++ [b])) (p ++ [b]) rest := by
  rw [splitUnits, startSequenceMatchSucc_matched]
  have hne := matched_ne_match (p ++ [b])
  have htake : ∀ k, (p ++ [b]).take ((p ++ [b]).length - (k + 1)) = p.take (p.length - k) := by
    intro k
    rw [List.length_append, List.length_singleton, List.take_append_of_le_length (by omega)]
    congr 1
    omega
  by_cases hshort : b = 1 ∧ zerosAtEnd p = 2
  · rw [if_pos hshort, if_pos ⟨hshort.1, by omega⟩, hshort.2]
    simp only [htake 2]
    rfl
  · rw [if_neg hshort]
    by_cases hlong : b = 1 ∧ 3 ≤ zerosAtEnd p
    · rw [if_pos hlong, if_pos ⟨hlong.1, by omega⟩, Nat.min_eq_left hlong.2]
      simp only [htake 3]
    · rw [if_neg hlong, if_neg (fun h => (lt_or_eq_of_le h.2).elim (fun h3 => hlong ⟨h.1, h3⟩)
        (fun h2 => hshort ⟨h.1, h2.symm⟩))]
      cases hm : matched (p ++ [b]) <;> simp_all

/-! ## Units that can be told apart -/

/-- Nothing is found in unbroken bytes. -/
theorem skipToUnit_unbroken (p q rest : Bytes) (h : Unbroken (p ++ q)) :
    skipToUnit (matched p) (q ++ rest) = skipToUnit (matched (p ++ q)) rest := by
  induction q generalizing p with
  | nil => rw [List.append_nil, List.nil_append]
  | cons b q ih =>
      rw [List.cons_append, skipToUnit_cons, if_neg]
      · rw [ih (p ++ [b]) (by simpa using h)]
        simp
      · rintro ⟨rfl, hzeros⟩
        exact not_unbroken_of_zeros hzeros h

theorem splitUnits_unbroken (p q rest : Bytes) (h : Unbroken (p ++ q)) :
    splitUnits (matched p) p (q ++ rest) = splitUnits (matched (p ++ q)) (p ++ q) rest := by
  induction q generalizing p with
  | nil => rw [List.append_nil, List.nil_append]
  | cons b q ih =>
      rw [List.cons_append, splitUnits_cons, if_neg]
      · rw [ih (p ++ [b]) (by simpa using h)]
        simp
      · rintro ⟨rfl, hzeros⟩
        exact not_unbroken_of_zeros hzeros h

/-- The zeros in front of a start sequence's one. -/
theorem zerosAtEnd_startSequence (p : Bytes) (long : Bool) :
    2 ≤ zerosAtEnd (p ++ List.replicate (if long then 3 else 2) 0) := by
  rw [zerosAtEnd_append_zeros]
  split <;> omega

theorem skipToUnit_startSequence {p : Bytes} (h : Unbroken p) (long : Bool) (rest : Bytes) :
    skipToUnit (matched p) (startSequence long ++ rest) = rest := by
  rw [startSequence, List.append_assoc, skipToUnit_unbroken _ _ _ (h.append_zeros _), List.singleton_append,
    skipToUnit_cons, if_pos ⟨rfl, zerosAtEnd_startSequence p long⟩]

/-- **A unit ends at the start sequence behind it.** -/
theorem splitUnits_startSequence {p : Bytes} (h : Unbroken p) {long : Bool}
    (hzeros : long = false → zerosAtEnd p = 0) (rest : Bytes) :
    splitUnits (matched p) p (startSequence long ++ rest) = p :: splitUnits .noMatch [] rest := by
  rw [startSequence, List.append_assoc, splitUnits_unbroken _ _ _ (h.append_zeros _), List.singleton_append,
    splitUnits_cons, if_pos ⟨rfl, zerosAtEnd_startSequence p long⟩, zerosAtEnd_append_zeros]
  congr 1
  cases long with
  | true =>
      rw [Nat.min_eq_left (by simp)]
      simp
  | false =>
      rw [hzeros rfl]
      simp

theorem splitUnits_byteStream {nalu : Bytes} {rest : List (Bool × Bytes)} (h : Separated nalu rest) :
    splitUnits .noMatch [] (nalu ++ byteStream rest) = nalu :: rest.map Prod.snd := by
  have hstart : ∀ q r, Unbroken q → splitUnits .noMatch [] (q ++ r) = splitUnits (matched q) q r :=
    fun q r hq => splitUnits_unbroken [] q r hq
  induction rest generalizing nalu with
  | nil =>
      rw [hstart _ _ h]
      rfl
  | cons next rest ih =>
      obtain ⟨long, next⟩ := next
      obtain ⟨hnalu, hzeros, hrest⟩ := h
      rw [hstart _ _ hnalu, byteStream, List.append_assoc, splitUnits_startSequence hnalu hzeros, ih hrest]
      rfl

/-! ## Every frame -/

/-- A byte that does not end a start sequence breaks nothing. -/
theorem Unbroken.snoc {p : Bytes} (h : Unbroken p) {b : UInt8} (hb : ¬ (b = 1 ∧ 2 ≤ zerosAtEnd p)) :
    Unbroken (p ++ [b]) := by
  intro hin
  rcases List.infix_concat_iff.mp hin with ⟨q, hq⟩ | hin
  · have hq' : (q ++ List.replicate 2 0) ++ [1] = p ++ [b] := by rw [← hq]; simp
    obtain ⟨rfl, hone⟩ := List.append_inj' hq' rfl
    refine hb ⟨(List.singleton_inj.mp hone).symm, ?_⟩
    rw [zerosAtEnd_append_zeros]
    omega
  · exact h hin

/-- Where a start sequence ends, the bytes before it are a unit and its zeros. -/
theorem exists_unit {p : Bytes} (h : Unbroken p) (hzeros : 2 ≤ zerosAtEnd p) :
    ∃ nalu long, p ++ [1] = nalu ++ startSequence long ∧ Unbroken nalu ∧
      (long = false → zerosAtEnd nalu = 0) ∧ p.take (p.length - min 3 (zerosAtEnd p)) = nalu := by
  generalize hk : min 3 (zerosAtEnd p) = k
  obtain ⟨nalu, rfl⟩ := exists_append_zeros (p := p) (k := k) (by omega)
  rw [zerosAtEnd_append_zeros] at hk hzeros
  refine ⟨nalu, decide (k = 3), ?_, h.of_append, ?_, ?_⟩
  · have hlong : (if decide (k = 3) = true then 3 else 2) = k := by
      split_ifs with h3
      · exact (of_decide_eq_true h3).symm
      · have := of_decide_eq_false (by simpa using h3)
        omega
    rw [startSequence, hlong, List.append_assoc]
  · intro hshort
    have := of_decide_eq_false hshort
    omega
  · simp

/-- Whatever is left of a frame, the second loop returns the units of its byte stream. -/
theorem splitUnits_spec (p rest : Bytes) (h : Unbroken p) :
    ∃ nalu units, p ++ rest = nalu ++ byteStream units ∧ Separated nalu units ∧
      splitUnits (matched p) p rest = nalu :: units.map Prod.snd := by
  induction hn : rest.length using Nat.strongRecOn generalizing p rest with
  | ind n ih =>
      cases rest with
      | nil => exact ⟨p, [], by simp [byteStream], h, rfl⟩
      | cons b rest =>
          rw [List.length_cons] at hn
          rw [splitUnits_cons]
          split_ifs with hb
          -- A start sequence ends here; its zeros have been taken for the end of the unit until now.
          · obtain ⟨rfl, hzeros⟩ := hb
            obtain ⟨nalu, long, hp, hnalu, hlong, htake⟩ := exists_unit h hzeros
            obtain ⟨next, units, heq, hsep, hsplit⟩ :=
              ih rest.length (by omega) [] rest (by simp [Unbroken]) rfl
            refine ⟨nalu, (long, next) :: units, ?_, ⟨hnalu, hlong, hsep⟩, ?_⟩
            · calc p ++ 1 :: rest = p ++ [1] ++ ([] ++ rest) := by simp
                _ = nalu ++ startSequence long ++ (next ++ byteStream units) := by rw [hp, heq]
                _ = nalu ++ byteStream ((long, next) :: units) := by simp [byteStream]
            · rw [htake, List.map_cons]
              exact congrArg _ hsplit
          -- The byte is one more of the unit.
          · obtain ⟨nalu, units, heq, hsep, hsplit⟩ := ih rest.length (by omega) (p ++ [b]) rest (h.snoc hb) rfl
            exact ⟨nalu, units, by simpa using heq, hsep, hsplit⟩

/-- The first loop finds the first start sequence, if there is one. -/
theorem skipToUnit_spec (p rest : Bytes) (h : Unbroken p) :
    (Unbroken (p ++ rest) ∧ skipToUnit (matched p) rest = []) ∨
      ∃ before long, p ++ rest = before ++ startSequence long ++ skipToUnit (matched p) rest ∧
        Unbroken before := by
  induction rest generalizing p with
  | nil =>
      left
      exact ⟨by simpa using h, by rw [skipToUnit]⟩
  | cons b rest ih =>
      rw [skipToUnit_cons]
      split_ifs with hb
      · right
        obtain ⟨rfl, hzeros⟩ := hb
        obtain ⟨before, long, hp, hbefore, -, -⟩ := exists_unit h hzeros
        exact ⟨before, long, by rw [← hp]; simp, hbefore⟩
      · simpa using ih (p ++ [b]) (h.snoc hb)

/-- What comes out of a frame, and where it was. -/
theorem splitFrame_spec (frame : Bytes) :
    (Unbroken frame ∧ splitFrame frame = [[]]) ∨
      ∃ before long nalu units,
        frame = before ++ byteStream ((long, nalu) :: units) ∧ Unbroken before ∧ Separated nalu units ∧
          splitFrame frame = nalu :: units.map Prod.snd := by
  have hnil : Unbroken [] := by simp [Unbroken]
  rcases skipToUnit_spec [] frame hnil with ⟨hunbroken, hskip⟩ | ⟨before, long, hframe, hbefore⟩
  · left
    refine ⟨hunbroken, ?_⟩
    rw [splitFrame, ← show matched [] = .noMatch from rfl, hskip, splitUnits]
  · right
    obtain ⟨nalu, units, heq, hsep, hsplit⟩ := splitUnits_spec [] (skipToUnit (matched []) frame) hnil
    refine ⟨before, long, nalu, units, ?_, hbefore, hsep, hsplit⟩
    calc frame = before ++ startSequence long ++ ([] ++ skipToUnit (matched []) frame) := by
            rw [List.nil_append, ← hframe, List.nil_append]
      _ = before ++ byteStream ((long, nalu) :: units) := by rw [heq]; simp [byteStream]

theorem splitFrame_unbroken {frame : Bytes} (h : Unbroken frame) : splitFrame frame = [[]] := by
  have hskip : skipToUnit .noMatch (frame ++ []) = [] := by
    rw [← show matched [] = .noMatch from rfl, skipToUnit_unbroken [] frame [] h, skipToUnit]
  rw [splitFrame, ← List.append_nil frame, hskip, splitUnits]

/-- Whatever is in front of the first start sequence, and whichever it is, the units behind it come out. -/
theorem splitFrame_byteStream {before nalu : Bytes} {units : List (Bool × Bytes)} (hbefore : Unbroken before)
    (h : Separated nalu units) (long : Bool) :
    splitFrame (before ++ byteStream ((long, nalu) :: units)) = nalu :: units.map Prod.snd := by
  have hskip : skipToUnit .noMatch (before ++ (startSequence long ++ (nalu ++ byteStream units))) =
      nalu ++ byteStream units := by
    rw [← show matched [] = .noMatch from rfl, skipToUnit_unbroken [] before _ hbefore, List.nil_append,
      skipToUnit_startSequence hbefore]
  rw [splitFrame, byteStream, List.append_assoc, hskip, splitUnits_byteStream h]

theorem length_le_byteStream {units : List (Bool × Bytes)} {nalu : Bytes} (h : nalu ∈ units.map Prod.snd) :
    nalu.length ≤ (byteStream units).length := by
  induction units with
  | nil => exact absurd h (by simp)
  | cons unit units ih =>
      simp only [byteStream, List.length_append]
      rcases List.mem_cons.mp h with rfl | h
      · omega
      · have := ih h
        omega

/-- A unit is part of the frame. -/
theorem length_le_of_mem_splitFrame {frame nalu : Bytes} (h : nalu ∈ splitFrame frame) :
    nalu.length ≤ frame.length := by
  rcases splitFrame_spec frame with ⟨-, heq⟩ | ⟨before, long, first, units, hframe, -, -, heq⟩
  · rw [heq, List.mem_singleton] at h
    simp [h]
  · rw [heq] at h
    have hle : nalu.length ≤ (byteStream ((long, first) :: units)).length := length_le_byteStream h
    rw [hframe, List.length_append]
    omega

theorem splitFrame_ne_nil (frame : Bytes) : splitFrame frame ≠ [] := by
  rcases splitFrame_spec frame with ⟨-, heq⟩ | ⟨_, _, _, _, -, -, -, heq⟩ <;> simp [heq]

/-- **What `splitFrame` makes of a frame.** The units behind the first start sequence, cut apart in the one way
    in which no unit holds a start sequence and no short one follows a zero; and one empty unit of a frame in
    which there is no start sequence. -/
theorem splitFrame_eq_iff (frame : Bytes) (nalus : List Bytes) :
    splitFrame frame = nalus ↔
      (Unbroken frame ∧ nalus = [[]]) ∨
        ∃ before long nalu units,
          frame = before ++ byteStream ((long, nalu) :: units) ∧ Unbroken before ∧ Separated nalu units ∧
            nalus = nalu :: units.map Prod.snd := by
  constructor
  · rintro rfl
    exact splitFrame_spec frame
  · rintro (⟨hunbroken, rfl⟩ | ⟨before, long, nalu, units, rfl, hbefore, hsep, rfl⟩)
    · exact splitFrame_unbroken hunbroken
    · exact splitFrame_byteStream hbefore hsep long

end Media

end WebrtcStreamer
