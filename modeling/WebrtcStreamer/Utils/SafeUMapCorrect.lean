import WebrtcStreamer.Utils.SafeUMap

/-!
# `Utils.SafeUMapCorrect` — the map under any number of threads

Results about `SafeUMap.program`, for every type of keys, every number of threads and every interleaving:

* `linearizable` — the calls do, in the order in which they give the lock back, what they would do one after the
  other. It instantiates `SharedMutex.exec_explained` with the outline of the four operations.
* `destroyed_iff` — an object is destroyed once, and when the last pointer to it is gone.
* `readers_destroy_nothing` — and never by `get` or `traverse`.
* `calls_return` — nobody is locked out for good.
-/

namespace WebrtcStreamer

namespace SafeUMap

open SharedMutex Transition

variable {K : Type}

/-! ## Pointers -/

/-- The use counts are right for the given numbers of pointers. -/
structure Counted (s : SafeUMap K) (owners : Ref → ℕ) : Prop where
  useCount : ∀ ref : ℕ, s.useCount ref = owners ref
  nodup : s.destroyed.Nodup
  destroyed : ∀ ref : ℕ, ref ∈ s.destroyed ↔ ref < s.useCounts.length ∧ owners ref = 0

variable {s s' : SafeUMap K} {n n' : Ref → ℕ}

theorem counted_new (K : Type) : Counted (new K) fun _ => 0 where
  useCount _ := rfl
  nodup := List.nodup_nil
  destroyed ref := by simp [new]

theorem Counted.congr (h : Counted s n) (hcounts : s'.useCounts = s.useCounts)
    (hdestroyed : s'.destroyed = s.destroyed) (hn : ∀ ref, n' ref = n ref) : Counted s' n' where
  useCount ref := by rw [SafeUMap.useCount, hcounts, hn, ← h.useCount, SafeUMap.useCount]
  nodup := hdestroyed ▸ h.nodup
  destroyed ref := by rw [hdestroyed, hcounts, hn, h.destroyed]

/-- A pointer leads to an object that has been made. -/
theorem Counted.lt_length (h : Counted s n) {ref : Ref} (hpos : 0 < n ref) : ref < s.useCounts.length := by
  by_contra hge
  have hzero : s.useCount ref = 0 := by
    rw [SafeUMap.useCount, List.getD_eq_getElem?_getD, List.getElem?_eq_none (not_lt.mp hge)]
    rfl
  rw [h.useCount] at hzero
  omega

theorem useCount_set {counts : List ℕ} {ref : Ref} (hlt : ref < counts.length) (count : ℕ) (ref' : Ref) :
    (counts.set ref count).getD ref' 0 = if ref' = ref then count else counts.getD ref' 0 := by
  rw [List.getD_eq_getElem?_getD, List.getElem?_set]
  by_cases heq : ref = ref'
  · subst heq
    simp [hlt]
  · rw [if_neg heq, if_neg (Ne.symm heq), List.getD_eq_getElem?_getD]

theorem Counted.retain (h : Counted s n) {value : SharedPtr} (hvalue : ∀ ref, value = some ref → 0 < n ref)
    (hn : ∀ ref, n' ref = n ref + (value == some ref).toNat) : Counted (s.retain value) n' := by
  cases value with
  | none => exact h.congr rfl rfl (by simpa using hn)
  | some ref =>
      have hpos := hvalue ref rfl
      have hlt := h.lt_length hpos
      constructor
      case nodup => exact h.nodup
      case useCount =>
        intro ref'
        rw [SafeUMap.retain, SafeUMap.useCount, useCount_set hlt, h.useCount, hn, ← h.useCount ref']
        by_cases heq : ref' = ref
        · subst heq
          simp [h.useCount]
        · simp [heq, Ne.symm heq, SafeUMap.useCount]
      case destroyed =>
        intro ref'
        have hlength : (s.retain (some ref)).useCounts.length = s.useCounts.length := by
          simp [SafeUMap.retain]
        rw [hlength, hn]
        by_cases heq : ref' = ref
        · subst heq
          have hnot : ref' ∉ s.destroyed := fun hmem => by
            have hzero := ((h.destroyed ref').mp hmem).2
            omega
          simpa [SafeUMap.retain] using hnot
        · simpa [SafeUMap.retain, Ne.symm heq] using h.destroyed ref'

theorem Counted.release (h : Counted s n) {value : SharedPtr} (hvalue : ∀ ref, value = some ref → 0 < n ref)
    (hn : ∀ ref, n' ref + (value == some ref).toNat = n ref) : Counted (s.release value) n' := by
  cases value with
  | none => exact h.congr rfl rfl (by simpa using hn)
  | some ref =>
      have hpos := hvalue ref rfl
      have hlt := h.lt_length hpos
      have hnot : ref ∉ s.destroyed := fun hmem => by
        have hzero := ((h.destroyed ref).mp hmem).2
        omega
      have hself := hn ref
      simp only [beq_self_eq_true, Bool.toNat_true] at hself
      have hother : ∀ ref', ref' ≠ ref → n' ref' = n ref' := by
        intro ref' hne
        have hbeq : (some ref == some ref') = false := beq_eq_false_iff_ne.mpr (by simpa using Ne.symm hne)
        have hrest := hn ref'
        rwa [hbeq] at hrest
      constructor
      case useCount =>
        intro ref'
        rw [SafeUMap.release, SafeUMap.useCount, useCount_set hlt, h.useCount]
        by_cases heq : ref' = ref
        · subst heq
          rw [if_pos rfl]
          omega
        · rw [if_neg heq, hother ref' heq, ← h.useCount, SafeUMap.useCount]
      case nodup =>
        simp only [SafeUMap.release]
        split_ifs
        · exact List.nodup_append.mpr ⟨h.nodup, List.nodup_singleton ref, by
            rintro a ha b hb rfl
            exact hnot (List.mem_singleton.mp hb ▸ ha)⟩
        · exact h.nodup
      case destroyed =>
        intro ref'
        have hlength : (s.release (some ref)).useCounts.length = s.useCounts.length := by
          simp [SafeUMap.release]
        rw [hlength]
        simp only [SafeUMap.release, h.useCount]
        by_cases heq : ref' = ref
        · subst heq
          split_ifs with hlast
          · simp only [List.mem_append, List.mem_singleton, or_true, true_iff]
            exact ⟨hlt, by omega⟩
          · have hne : n' ref' ≠ 0 := by omega
            simp [hnot, hne]
        · rw [hother ref' heq, ← h.destroyed]
          split_ifs
          · simp [heq]
          · rfl

theorem Counted.make (h : Counted s n) {held : List Ref}
    (hn : ∀ ref, n' ref = n ref + if ref = s.useCounts.length then 1 else 0) :
    Counted { s with useCounts := s.useCounts ++ [1], held := held } n' := by
  have hnew : n s.useCounts.length = 0 := by
    by_contra hne
    exact absurd (h.lt_length (Nat.pos_of_ne_zero hne)) (lt_irrefl _)
  constructor
  case nodup => exact h.nodup
  case useCount =>
    intro ref
    rw [hn, ← h.useCount, SafeUMap.useCount, SafeUMap.useCount, List.getD_eq_getElem?_getD,
      List.getD_eq_getElem?_getD]
    rcases lt_trichotomy ref s.useCounts.length with hlt | rfl | hgt
    · rw [List.getElem?_append_left hlt, if_neg hlt.ne, Nat.add_zero]
    · rw [if_pos rfl, List.getElem?_concat_length, List.getElem?_eq_none le_rfl]
      rfl
    · rw [if_neg hgt.ne', List.getElem?_eq_none (by simp; omega), List.getElem?_eq_none (by omega)]
      rfl
  case destroyed =>
    intro ref
    have hmem := h.destroyed ref
    have hlength : (s.useCounts ++ [1]).length = s.useCounts.length + 1 := by simp
    simp only [hn, hlength, hmem]
    by_cases heq : ref = s.useCounts.length
    · subst heq
      simp
    · rw [if_neg heq, Nat.add_zero]
      exact ⟨fun hlt => ⟨by omega, hlt.2⟩, fun hlt => ⟨by omega, hlt.2⟩⟩

/-- With another pointer left, nothing goes. -/
theorem destroyed_release {value : SharedPtr} (h : ∀ ref, value = some ref → 2 ≤ s.useCount ref) :
    (s.release value).destroyed = s.destroyed := by
  cases value with
  | none => rfl
  | some ref =>
      have htwo := h ref rfl
      exact if_neg (by omega)

/-- With the last one, its object does. -/
theorem destroyed_release_or (s : SafeUMap K) (value : SharedPtr) :
    (s.release value).destroyed = s.destroyed ∨
      ∃ ref, value = some ref ∧ s.useCount ref ≤ 1 ∧ (s.release value).destroyed = s.destroyed ++ [ref] := by
  cases value with
  | none => exact .inl rfl
  | some ref =>
      by_cases hlast : s.useCount ref ≤ 1
      · exact .inr ⟨ref, rfl, hlast, if_pos hlast⟩
      · exact .inl (if_neg hlast)

@[simp] theorem destroyed_retain (s : SafeUMap K) (value : SharedPtr) :
    (s.retain value).destroyed = s.destroyed := by
  cases value <;> rfl

/-- Holding one more pointer. -/
theorem useCount_hold {ref : Ref} (hlt : ref < s.useCounts.length) :
    (s.hold (some ref)).useCount ref = s.useCount ref + 1 := by
  rw [hold, SafeUMap.useCount, retain, useCount_set hlt, if_pos rfl]

/-! ## Owners -/

def Op.value : Op K → SharedPtr
  | .emplace _ value => value
  | _ => none

/-- The pointer that a call has. -/
def pointer : Phase (Op K) (Loc K) → SharedPtr
  | .idle => none
  | .entering op | .inside op .top => op.value
  | .inside _ (.dropping value _) => value
  | .inside _ (.walking _ _) => none
  | .inside _ (.calling _ entry _) => entry.2

/-- How many pointers to an object there are outside of the calls. -/
def stored (s : SafeUMap K) (ref : Ref) : ℕ :=
  (s.map.entries.map Sigma.snd).count (some ref) + s.held.count ref

/-- How many pointers to an object there are. -/
def owners (s : Threads K) (ref : Ref) : ℕ :=
  stored s.shared ref + s.threads.countP fun p => pointer p == some ref

theorem stored_pos {key : K} {ref : Ref} (h : (⟨key, some ref⟩ : Entry K) ∈ s.map.entries) :
    0 < stored s ref := by
  have hmem : some ref ∈ s.map.entries.map Sigma.snd := List.mem_map_of_mem (f := Sigma.snd) h
  have hpos := List.count_pos_iff.mpr hmem
  rw [stored]
  omega

theorem stored_hold (s : SafeUMap K) (value : SharedPtr) (ref : Ref) :
    stored (s.hold value) ref = stored s ref + (value == some ref).toNat := by
  have hheld : (s.hold value).held = value.toList ++ s.held := rfl
  rw [stored, map_hold, hheld, stored, List.count_append]
  cases value with
  | none => simp
  | some ref' =>
      by_cases heq : ref' = ref
      · subst heq
        simp only [Option.toList_some, List.count_singleton_self, beq_self_eq_true, Bool.toNat_true]
        omega
      · simp [heq]

@[simp] theorem stored_retain (s : SafeUMap K) (value : SharedPtr) (ref : Ref) :
    stored (s.retain value) ref = stored s ref := by
  cases value <;> rfl

@[simp] theorem stored_release (s : SafeUMap K) (value : SharedPtr) (ref : Ref) :
    stored (s.release value) ref = stored s ref := by
  cases value <;> rfl

theorem count_erase_held {ref : Ref} (hmem : ref ∈ s.held) (ref' : Ref) :
    (s.held.erase ref).count ref' + (some ref == some ref').toNat = s.held.count ref' := by
  by_cases heq : ref = ref'
  · subst heq
    have hpos := List.count_pos_iff.mpr hmem
    rw [List.count_erase_self, beq_self_eq_true, Bool.toNat_true]
    omega
  · rw [List.count_erase_of_ne (Ne.symm heq)]
    simp [heq]

theorem stored_insert [DecidableEq K] {key : K} (h : key ∉ s.map) (value : SharedPtr) (ref : Ref) :
    stored { s with map := s.map.insert key value } ref = stored s ref + (value == some ref).toNat := by
  rw [stored, stored, AList.entries_insert_of_notMem h, List.map_cons, List.count_cons]
  cases hv : value == some ref
  · simp
  · simp only [if_true, Bool.toNat_true]
    omega

theorem stored_erase [DecidableEq K] {key : K} {value : SharedPtr} (h : s.map.lookup key = some value)
    (ref : Ref) :
    stored { s with map := s.map.erase key } ref + (value == some ref).toNat = stored s ref := by
  -- The entries without this one, up to their order.
  have hmem := AList.mem_lookup_iff.mp (Option.mem_def.mpr h)
  have hperm : s.map.entries.Perm (⟨key, value⟩ :: (s.map.erase key).entries) := by
    obtain ⟨value', l₁, l₂, hnot, hsplit, herase⟩ :=
      List.exists_of_kerase (List.mem_keys_of_mem hmem)
    have hvalue : value' = value := by
      have hmem' : value' ∈ s.map.lookup key := by
        rw [AList.mem_lookup_iff, hsplit]
        simp
      exact Option.some.inj (hmem'.symm.trans h)
    have hentries : (s.map.erase key).entries = l₁ ++ l₂ := herase
    rw [hentries, hsplit, hvalue]
    exact List.perm_middle
  rw [stored, stored, (hperm.map Sigma.snd).count_eq, List.map_cons, List.count_cons]
  cases hv : value == some ref
  · simp
  · simp only [if_true, Bool.toNat_true]
    omega

/-! ## Steps -/

/-- Where a section has got to, as a thread. -/
def settled (op : Op K) : Loc K ⊕ Ret K → Phase (Op K) (Loc K)
  | .inl loc => .inside op loc
  | .inr _ => .idle

/-- **A step of a section**, with so many pointers in the other calls. -/
theorem Nexted.counted [DecidableEq K] {op : Op K} {loc : Loc K} {out : Loc K ⊕ Ret K} (hst : Nexted s op loc s' out)
    {others : Ref → ℕ}
    (h : Counted s fun ref => stored s ref + others ref + (pointer (.inside op loc) == some ref).toNat)
    (hrest : ∀ visited entry rest, loc = .walking visited (entry :: rest) → entry ∈ s.map.entries) :
    Counted s' fun ref => stored s' ref + others ref + (pointer (settled op out) == some ref).toNat := by
  -- the pointer that the call has
  have hown : ∀ ref, pointer (.inside op loc) = some ref →
      0 < stored s ref + others ref + (pointer (.inside op loc) == some ref).toNat := by
    intro ref heq
    simp [heq]
  cases hst with
  -- The pointer of the caller stays with the call, which drops it after the search.
  | present => exact h.congr rfl rfl fun _ => rfl
  | missed | absent => exact h.congr rfl rfl fun _ => rfl
  | walked => exact h.congr rfl rfl fun _ => rfl
  -- The pointer goes over from the call to the map, and with `erase` from the map to the call.
  | emplaced key value hnot =>
      refine h.congr rfl rfl fun ref => ?_
      rw [stored_insert hnot]
      simp only [settled, pointer, Op.value, Option.none_beq_some, Bool.toNat_false]
      omega
  | erased key value hsome =>
      refine h.congr rfl rfl fun ref => ?_
      have herase := stored_erase hsome ref
      simp only [settled, pointer, Op.value, Option.none_beq_some, Bool.toNat_false]
      omega
  | got key value hsome =>
      have hmem := AList.mem_lookup_iff.mp (Option.mem_def.mpr hsome)
      refine (h.retain ?_ fun ref => rfl).congr rfl rfl fun ref => ?_
      · rintro ref rfl
        have hpos := stored_pos hmem
        omega
      · rw [stored_hold]
        simp only [settled, pointer, Op.value, Option.none_beq_some, Bool.toNat_false]
        omega
  | dropped op value result =>
      refine h.release hown fun ref => ?_
      simp [settled, pointer]
  | entered visited rest entry =>
      have hmem := hrest visited entry rest rfl
      refine h.retain (fun ref heq => ?_) fun ref => ?_
      · have hentry : (⟨entry.1, some ref⟩ : Entry K) ∈ s.map.entries := by
          rw [← heq]
          exact hmem
        have hpos : 0 < stored s ref := stored_pos hentry
        omega
      · simp [settled, pointer]
  -- The function keeps a copy before its own pointer goes.
  | kept visited rest entry =>
      have hheld := h.retain hown fun ref => rfl
      have hhold : Counted (s.hold entry.2) fun ref =>
          stored s ref + others ref + (entry.2 == some ref).toNat + (entry.2 == some ref).toNat :=
        hheld.congr rfl rfl fun _ => rfl
      refine hhold.release (fun ref heq => by simp [heq]) fun ref => ?_
      rw [stored_release, stored_hold]
      simp only [settled, pointer, Option.none_beq_some, Bool.toNat_false]
      omega
  | left visited rest entry =>
      refine h.release hown fun ref => ?_
      simp [settled, pointer]

/-- What is done without the lock. -/
theorem Counted.outside {e : Outside} (hst : outside e s = some s') {others : Ref → ℕ}
    (h : Counted s fun ref => stored s ref + others ref) : Counted s' fun ref => stored s' ref + others ref := by
  cases e with
  | make =>
      cases hst
      refine h.make fun ref => ?_
      simp only [stored, List.count_cons, beq_iff_eq, eq_comm (a := s.useCounts.length)]
      omega
  | copy ref =>
      simp only [SafeUMap.outside] at hst
      split_ifs at hst with hmem
      cases hst
      refine (h.retain ?_ fun ref => rfl).congr rfl rfl fun ref' => ?_
      · rintro ref' heq
        cases heq
        have hpos := List.count_pos_iff.mpr hmem
        rw [stored]
        omega
      · rw [stored_hold]
        omega
  | drop ref =>
      simp only [SafeUMap.outside] at hst
      split_ifs at hst with hmem
      cases hst
      have hcount : ∀ ref', stored { s with held := s.held.erase ref } ref' + (some ref == some ref').toNat =
          stored s ref' := by
        intro ref'
        have herase := count_erase_held hmem ref'
        simp only [stored]
        omega
      have hpos : 0 < stored s ref := by
        have := List.count_pos_iff.mpr hmem
        rw [stored]
        omega
      have hheld : Counted { s with held := s.held.erase ref } fun ref => stored s ref + others ref :=
        h.congr rfl rfl fun _ => rfl
      refine hheld.release (fun ref' heq => ?_) fun ref' => ?_
      · cases heq
        omega
      · rw [stored_release, ← hcount ref']
        omega

/-- The pointer that is passed. -/
theorem Counted.pass {op : Op K} (hst : op.pass s = some s') {others : Ref → ℕ}
    (h : Counted s fun ref => stored s ref + others ref) :
    Counted s' fun ref => stored s' ref + others ref + (op.value == some ref).toNat := by
  unfold Op.pass at hst
  split at hst
  case h_1 key ref =>
    split_ifs at hst with hmem
    cases hst
    refine h.congr rfl rfl fun ref' => ?_
    have herase := count_erase_held hmem ref'
    simp only [stored, Op.value]
    omega
  case h_2 hne =>
    cases hst
    have hnone : op.value = none := by
      cases op with
      | emplace key value =>
          cases value with
          | none => rfl
          | some ref => exact absurd rfl (hne key ref)
      | get | erase | traverse => rfl
    simpa [hnone] using h

theorem destroyed_pass {op : Op K} (hst : op.pass s = some s') : s'.destroyed = s.destroyed := by
  unfold Op.pass at hst
  split at hst
  case h_1 =>
    split_ifs at hst
    cases hst
    rfl
  case h_2 =>
    cases hst
    rfl

theorem pointer_start [DecidableEq K] {op : Op K} {choice : Choice K} {loc : Loc K}
    (h : op.start choice s = some loc) : pointer (.inside op loc) = op.value := by
  rcases start_eq_some h with ⟨-, rfl⟩ | ⟨rfl, entries, -, rfl⟩
  · rfl
  · rfl

/-! ## Runs -/

/-- The pointers of the threads other than `t`. -/
theorem owners_eq {s : Threads K} {t : ℕ} {p : Phase (Op K) (Loc K)} (ht : s.threads[t]? = some p)
    (ref : Ref) :
    owners s ref = stored s.shared ref + (s.threads.set t .idle).countP (fun p => pointer p == some ref) +
      (pointer p == some ref).toNat := by
  have hmove := Monitor.countP_move (f := fun p => pointer p == some ref) (q := .idle) ht
  have hidle : (pointer (.idle : Phase (Op K) (Loc K)) == some ref) = false := rfl
  rw [hidle, Bool.toNat_false] at hmove
  rw [owners]
  omega

variable [DecidableEq K]

/-- The use counts are right, and sections are where they should be. -/
structure Sound (s : Threads K) : Prop where
  counted : Counted s.shared (owners s)
  locked : Locked (program K) s
  explained : ∃ v, Explained (outline K) (fun _ => none) s v

theorem sound_start (n : ℕ) : Sound (start K n) where
  counted := (counted_new K).congr rfl rfl fun ref => by
    simp [owners, stored, start, init, new, List.countP_replicate, pointer]
  locked := locked_init (new K) n
  explained := ⟨_, explained_init (outline K) (new K) n⟩

/-- Behind a thread that walks there is nothing that is not in the map. -/
theorem Sound.mem_entries {s : Threads K} (h : Sound s) {t : ℕ} {op : Op K} {loc : Loc K}
    (ht : s.threads[t]? = some (.inside op loc)) {entry : Entry K}
    (hloc : (∃ visited rest, loc = .walking visited (entry :: rest)) ∨
      ∃ visited rest, loc = .calling visited entry rest) : entry ∈ s.shared.map.entries := by
  obtain ⟨v, hv⟩ := h.explained
  have hin : Inside v op loc s.shared.view := hv.inside t op loc ht
  have hlists : s.shared.view = v ∧ ∃ entries, Lists v entries ∧ entry ∈ entries := by
    generalize s.shared.view = w at hin
    rcases hloc with ⟨visited, rest, rfl⟩ | ⟨visited, rest, rfl⟩
    · cases hin with
      | walking _ _ hlists => exact ⟨rfl, _, hlists, by simp⟩
    · cases hin with
      | calling _ _ _ hlists => exact ⟨rfl, _, hlists, by simp⟩
  -- No writer has been in the map since the traversal began.
  obtain ⟨hview, entries, ⟨-, hlists⟩, hmem⟩ := hlists
  have hlookup := (hlists entry.1 entry.2).mp hmem
  rw [← hview] at hlookup
  exact AList.mem_lookup_iff.mp hlookup

/-- In the function there are two pointers at least: its own and that of the map. -/
theorem Sound.two_le_useCount {s : Threads K} (h : Sound s) {t : ℕ} {op : Op K}
    {visited rest : List (Entry K)} {entry : Entry K}
    (ht : s.threads[t]? = some (.inside op (.calling visited entry rest))) {ref : Ref}
    (heq : entry.2 = some ref) : 2 ≤ s.shared.useCount ref := by
  have hentry : (⟨entry.1, some ref⟩ : Entry K) ∈ s.shared.map.entries := by
    rw [← heq]
    exact h.mem_entries ht (.inr ⟨visited, rest, rfl⟩)
  have hstored : 0 < stored s.shared ref := stored_pos hentry
  have hown : (pointer (.inside op (.calling visited entry rest)) == some ref) = true := by
    simp [pointer, heq]
  rw [h.counted.useCount, owners_eq ht, hown, Bool.toNat_true]
  omega

theorem Sound.step {s s' : Threads K} (h : Sound s) {a : Action (Op K) (Choice K) Outside}
    (hst : Stepped (program K) s a s') : Sound s' := by
  refine ⟨?_, h.locked.step hst, ?_⟩
  case refine_2 =>
    obtain ⟨v, hv⟩ := h.explained
    exact hv.step h.locked hst
  -- what one thread does, with the pointers of the others
  have hcounted : ∀ {t : ℕ} {p : Phase (Op K) (Loc K)}, s.threads[t]? = some p →
      Counted s.shared fun ref => stored s.shared ref +
        (s.threads.set t .idle).countP (fun p => pointer p == some ref) + (pointer p == some ref).toNat :=
    fun ht => h.counted.congr rfl rfl fun ref => (owners_eq ht ref).symm
  have howners : ∀ {t : ℕ} {p q : Phase (Op K) (Loc K)}, s.threads[t]? = some p →
      s'.threads = s.threads.set t q → ∀ ref, owners s' ref = stored s'.shared ref +
        (s.threads.set t .idle).countP (fun p => pointer p == some ref) + (pointer q == some ref).toNat := by
    intro t p q ht hthreads ref
    have hlt := (List.getElem?_eq_some_iff.mp ht).1
    have hq : s'.threads[t]? = some q := by
      rw [hthreads]
      exact List.getElem?_set_self hlt
    rw [owners_eq hq, hthreads, List.set_set]
  cases hst with
  -- An idle thread has no pointer; a call takes the one that is passed.
  | called t op shared ht hpass =>
      have hothers : Counted s.shared fun ref => stored s.shared ref +
          (s.threads.set t .idle).countP fun p => pointer p == some ref := by
        simpa [pointer] using hcounted ht
      have hpassed := Counted.pass hpass hothers
      exact hpassed.congr rfl rfl (howners ht rfl)
  | acquired t op choice mutex loc ht hmutex hstart =>
      have hsame := pointer_start hstart
      refine (hcounted ht).congr rfl rfl fun ref => ?_
      rw [howners ht rfl, hsame]
      rfl
  | moved t op loc loc' choice shared ht hnext =>
      have hmoved := (nexted_of_next hnext).counted (hcounted ht) fun visited entry rest heq =>
        h.mem_entries ht (.inl ⟨visited, rest, heq⟩)
      exact hmoved.congr rfl rfl (howners ht rfl)
  | returned t op loc choice shared r ht hnext =>
      have hreturned := (nexted_of_next hnext).counted (hcounted ht) fun visited entry rest heq =>
        h.mem_entries ht (.inl ⟨visited, rest, heq⟩)
      exact hreturned.congr rfl rfl (howners ht rfl)
  | elsewhere e shared hout =>
      exact Counted.outside hout h.counted

/-- **Every run.** -/
theorem exec_sound {n : ℕ} : ∀ as s, exec (step (program K)) (start K n) as = some s → Sound s :=
  exec_invariant (sound_start n) fun _ _ _ hi hst => hi.step (stepped_of_step hst)

/-! ## Main theorems -/

/-- What the calls of a log have put into the map. -/
def written (log : List (Op K × Ret K)) : View K :=
  log.foldl
    (fun v call =>
      match call with
      | (.emplace key value, .result true) => Function.update v key (some value)
      | (.erase key, .result true) => Function.update v key none
      | _ => v)
    fun _ => none

theorem written_snoc {log : List (Op K × Ret K)} {op : Op K} {r : Ret K} {w : View K}
    (h : Call (written log) op r w) : w = written (log ++ [(op, r)]) := by
  have hsnoc : ∀ call, written (log ++ [call]) = _ := fun call => List.foldl_append
  rw [hsnoc]
  cases h <;> rfl

theorem calls_of_sequential {log : List (Op K × Ret K)} {v : View K}
    (h : Sequential (outline K).post (fun _ => none) log v) :
    v = written log ∧ ∀ before op r after, log = before ++ (op, r) :: after →
      Call (written before) op r (written (before ++ [(op, r)])) := by
  induction h with
  | nil => exact ⟨rfl, fun before op r after heq => absurd heq (by simp)⟩
  | @snoc log v w op r _ hcall ih =>
      obtain ⟨rfl, hcalls⟩ := ih
      have hw := written_snoc hcall
      refine ⟨hw, fun before op' r' after heq => ?_⟩
      rcases List.eq_nil_or_concat after with rfl | ⟨after, last, rfl⟩
      · obtain ⟨rfl, hlast⟩ := List.append_inj' heq rfl
        obtain ⟨rfl, rfl⟩ := Prod.mk.inj (List.singleton_inj.mp hlast)
        exact hw ▸ hcall
      · rw [List.concat_eq_append, ← List.cons_append, ← List.append_assoc] at heq
        exact hcalls before op' r' after (List.append_inj' heq rfl).1

/-- **Linearizability.** For any number of threads and any interleaving, every call that has returned did what it
    does on its own after those that had returned before it: `emplace` inserts if the key is absent, `get` finds
    what was emplaced last and not erased, and `traverse` visits every entry that there is once, whoever waits
    meanwhile. With no writer inside, the map is what the calls have put there. -/
theorem linearizable {n : ℕ} {as : List (Action (Op K) (Choice K) Outside)} {s : Threads K}
    (h : exec (step (program K)) (start K n) as = some s) :
    (∀ before op r after, s.log = before ++ (op, r) :: after →
      Call (written before) op r (written (before ++ [(op, r)]))) ∧
      (s.mutex.writer = false → s.shared.view = written s.log) := by
  obtain ⟨v, hv⟩ := exec_explained (outline K) h
  obtain ⟨rfl, hcalls⟩ := calls_of_sequential hv.sequential
  exact ⟨hcalls, hv.now⟩

/-- A traversal under way, another reader beside it, and a writer that has to wait. -/
def crowded : List (Action (Op ℕ) (Choice ℕ) Outside) :=
  [.outside .make, .call 0 (.emplace 7 (some 0)), .acquire 0 .none, .next 0 .none,
    .call 0 .traverse, .acquire 0 (.order [⟨7, some 0⟩]), .next 0 .none, .call 1 (.erase 7),
    .call 2 (.get 7), .acquire 2 .none, .next 2 .none, .next 0 .none, .next 0 .none,
    .acquire 1 .none, .next 1 .none, .next 1 .none]

theorem exec_crowded : ∃ s, exec (step (program ℕ)) (start ℕ 3) crowded = some s ∧
    s.log.map Prod.fst = [.emplace 7 (some 0), .get 7, .traverse, .erase 7] ∧ s.shared.held = [0] ∧
      s.shared.destroyed = [] :=
  ⟨_, rfl, rfl, rfl, rfl⟩

theorem linearizable_crowded : ∃ s : Threads ℕ,
    s.log.map Prod.fst = [.emplace 7 (some 0), .get 7, .traverse, .erase 7] ∧
      ∀ before op r after, s.log = before ++ (op, r) :: after →
        Call (written before) op r (written (before ++ [(op, r)])) := by
  obtain ⟨s, hs, hlog, -⟩ := exec_crowded
  exact ⟨s, hlog, (linearizable hs).1⟩

/-- **Objects live as long as there is a pointer to them**, in the map, in a call or with a caller: whatever
    the threads do, the use counts are right, and an object is destroyed once, when the last pointer has gone. -/
theorem destroyed_iff {n : ℕ} {as : List (Action (Op K) (Choice K) Outside)} {s : Threads K}
    (h : exec (step (program K)) (start K n) as = some s) :
    (∀ ref, s.shared.useCount ref = owners s ref) ∧ s.shared.destroyed.Nodup ∧
      ∀ ref, ref ∈ s.shared.destroyed ↔ ref < s.shared.useCounts.length ∧ owners s ref = 0 :=
  have hcounted := (exec_sound as s h).counted
  ⟨hcounted.useCount, hcounted.nodup, hcounted.destroyed⟩

/-- What `get` has returned outlives the entry. -/
theorem destroyed_iff_crowded : ∃ s : Threads ℕ, s.shared.view 7 = none ∧ 0 ∉ s.shared.destroyed := by
  obtain ⟨s, hs, hlog, hheld, -⟩ := exec_crowded
  obtain ⟨hcount, -, hdestroyed⟩ := destroyed_iff hs
  refine ⟨s, ?_, fun hmem => ?_⟩
  · cases hs
    rfl
  · have hzero := ((hdestroyed 0).mp hmem).2
    rw [owners, stored, hheld] at hzero
    simp at hzero

/-- What may destroy an object: its last pointer, which a caller drops or which `emplace` or `erase` has. -/
inductive Destroys (s : Threads K) (ref : Ref) : Action (Op K) (Choice K) Outside → Prop
  | outside : owners s ref = 1 → Destroys s ref (.outside (.drop ref))
  | section (t : ℕ) (op : Op K) (result : Bool) (choice : Choice K) : owners s ref = 1 → op.exclusive = true →
      s.threads[t]? = some (.inside op (.dropping (some ref) result)) → Destroys s ref (.next t choice)

/-- **No reader destroys anything**: an object goes when a caller drops the last pointer to it, or `emplace` or
    `erase` does, alone in the map. -/
theorem readers_destroy_nothing {n : ℕ} {as : List (Action (Op K) (Choice K) Outside)} {s s' : Threads K}
    (h : exec (step (program K)) (start K n) as = some s) {a : Action (Op K) (Choice K) Outside}
    (hst : step (program K) s a = some s') :
    s'.shared.destroyed = s.shared.destroyed ∨
      ∃ ref, s'.shared.destroyed = s.shared.destroyed ++ [ref] ∧ Destroys s ref a := by
  have hsound := exec_sound as s h
  have hcount := hsound.counted.useCount
  cases stepped_of_step hst with
  | called t op shared ht hpass => exact .inl (destroyed_pass hpass)
  | acquired => exact .inl rfl
  | moved t op loc loc' choice shared ht hnext =>
      refine .inl ?_
      cases nexted_of_next hnext with
      | present | erased => rfl
      | entered visited rest entry => exact destroyed_retain s.shared entry.2
      | left visited rest entry => exact destroyed_release fun ref heq => hsound.two_le_useCount ht heq
      | kept visited rest entry =>
          refine (destroyed_release fun ref heq => ?_).trans (destroyed_retain s.shared entry.2)
          have hle := hsound.two_le_useCount ht heq
          have hpos : 0 < s.shared.useCount ref := by omega
          rw [hcount] at hpos
          have hlt := hsound.counted.lt_length hpos
          rw [heq, useCount_hold hlt]
          omega
  | returned t op loc choice shared r ht hnext =>
      cases nexted_of_next hnext with
      | emplaced | missed | absent | walked => exact .inl rfl
      | got key value => exact .inl (destroyed_retain s.shared value)
      | dropped op value result hex =>
          rcases destroyed_release_or s.shared value with hsame | ⟨ref, rfl, hlast, hnew⟩
          · exact .inl hsame
          · have hown : (pointer (.inside op (.dropping (some ref) result)) == some ref) = true := by
              simp [pointer]
            have hone := owners_eq ht ref
            rw [hown, Bool.toNat_true, ← hcount] at hone
            exact .inr ⟨ref, hnew, .section t op result choice (by rw [← hcount]; omega) hex ht⟩
  | elsewhere e shared hout =>
      cases e with
      | make =>
          cases hout
          exact .inl rfl
      | copy ref =>
          replace hout : outside (.copy ref) s.shared = some shared := hout
          simp only [outside] at hout
          split_ifs at hout
          cases hout
          exact .inl rfl
      | drop ref =>
          replace hout : outside (.drop ref) s.shared = some shared := hout
          simp only [outside] at hout
          split_ifs at hout with hmem
          cases hout
          rcases destroyed_release_or { s.shared with held := s.shared.held.erase ref } (some ref) with
            hsame | ⟨ref', heq, hlast, hnew⟩
          · exact .inl hsame
          · obtain rfl := Option.some.inj heq
            have hpos := List.count_pos_iff.mpr hmem
            have hone : owners s ref ≤ 1 := (hcount ref).symm ▸ hlast
            have hstored : 0 < owners s ref := by
              rw [owners, stored]
              omega
            exact .inr ⟨ref, hnew, .outside (by omega)⟩

/-- An entry is erased to which nobody has another pointer. -/
theorem readers_destroy_nothing_erase :
    ∃ s : Threads ℕ, Destroys s 0 (.next 0 .none) := by
  let before : List (Action (Op ℕ) (Choice ℕ) Outside) :=
    [.outside .make, .call 0 (.emplace 7 (some 0)), .acquire 0 .none, .next 0 .none, .call 0 (.erase 7),
      .acquire 0 .none, .next 0 .none]
  obtain ⟨s, s', hs, hst, hnone, hone⟩ : ∃ s s', exec (step (program ℕ)) (start ℕ 1) before = some s ∧
      step (program ℕ) s (.next 0 .none) = some s' ∧ s.shared.destroyed = [] ∧ s'.shared.destroyed = [0] :=
    ⟨_, _, rfl, rfl, rfl, rfl⟩
  rcases readers_destroy_nothing hs hst with hsame | ⟨ref, hnew, hdestroys⟩
  · rw [hnone, hone] at hsame
    cases hsame
  · rw [hnone, hone] at hnew
    obtain rfl := List.singleton_inj.mp hnew
    exact ⟨s, hdestroys⟩

/-! ## Progress -/

/-- **Every section ends**, a traversal when it has visited the rest. The function that is passed to `traverse` is
    taken to return, and not to call the map. -/
def ending (K : Type) [DecidableEq K] : Ending (program K) where
  place op loc :=
    match op, loc with
    | .emplace _ _, .top | .emplace _ _, .dropping _ _ | .get _, .top | .erase _, .top
    | .erase _, .dropping _ _ | .traverse, .walking _ _ | .traverse, .calling _ _ _ => True
    | _, _ => False
  measure loc :=
    match loc with
    | .top => 1
    | .dropping _ _ => 0
    | .walking _ rest => 2 * rest.length
    | .calling _ _ rest => 2 * rest.length + 1
  start := by
    intro op s
    cases op with
    | emplace | get | erase => exact ⟨.none, .top, rfl⟩
    | traverse => exact ⟨.order s.map.entries, .walking [] s.map.entries, if_pos (List.Perm.refl _)⟩
  started := by
    intro op choice s loc h
    rcases start_eq_some h with ⟨hne, rfl⟩ | ⟨rfl, entries, -, rfl⟩
    · cases op with
      | traverse => exact absurd rfl hne
      | emplace | get | erase => trivial
    · trivial
  moved := by
    intro op loc choice s s' loc' hplace h
    cases nexted_of_next h <;> trivial
  ends := by
    intro op loc hplace s
    cases op with
    | emplace key value =>
        cases loc with
        | top =>
            by_cases hmem : key ∈ s.map
            · exact ⟨.none, _, _, if_pos hmem, by rintro _ ⟨⟩; exact Nat.one_pos⟩
            · exact ⟨.none, _, _, if_neg hmem, by simp⟩
        | dropping value result => exact ⟨.none, _, _, rfl, by simp⟩
        | walking | calling => cases hplace
    | get key =>
        cases loc with
        | top =>
            cases hlookup : s.map.lookup key with
            | none => exact ⟨.none, s, .inr (.pointer none), by simp [program, Op.next, hlookup], by simp⟩
            | some value =>
                exact ⟨.none, s.hold value, .inr (.pointer value), by simp [program, Op.next, hlookup], by simp⟩
        | dropping | walking | calling => cases hplace
    | erase key =>
        cases loc with
        | top =>
            cases hlookup : s.map.lookup key with
            | none => exact ⟨.none, s, .inr (.result false), by simp [program, Op.next, hlookup], by simp⟩
            | some value =>
                exact ⟨.none, { s with map := s.map.erase key }, .inl (.dropping value true),
                  by simp [program, Op.next, hlookup], by rintro _ ⟨⟩; exact Nat.one_pos⟩
        | dropping value result => exact ⟨.none, _, _, rfl, by simp⟩
        | walking | calling => cases hplace
    | traverse =>
        cases loc with
        | walking visited rest =>
            cases rest with
            | nil => exact ⟨.none, _, _, rfl, by simp⟩
            | cons entry rest =>
                refine ⟨.none, _, _, rfl, ?_⟩
                rintro _ ⟨⟩
                simp only [List.length_cons]
                omega
        | calling visited entry rest =>
            refine ⟨.none, _, _, rfl, ?_⟩
            rintro _ ⟨⟩
            exact Nat.lt_succ_self _
        | top | dropping => cases hplace

/-- **Nobody is locked out for good**: from every state the threads can get to one in which every call that had
    been made has returned. -/
theorem calls_return {n : ℕ} {as : List (Action (Op K) (Choice K) Outside)} {s : Threads K}
    (h : exec (step (program K)) (start K n) as = some s) :
    ∃ more s', exec (step (program K)) s more = some s' ∧ (∀ p ∈ s'.threads, p = .idle) ∧
      s'.log.length = s.log.length + s.threads.countP Phase.busy := by
  have hplaced : Placed (ending K) s :=
    exec_invariant (placed_init (ending K) (new K) n) (fun _ _ _ hi hst => hi.step (stepped_of_step hst)) as s h
  obtain ⟨more, s', hexec, hidle, hlog⟩ := exists_idle (ending K) (exec_locked as s h) hplaced
  refine ⟨more, s', hexec, fun p hp => ?_, hlog⟩
  have hnot := List.countP_eq_zero.mp hidle p hp
  cases p with
  | idle => rfl
  | entering | inside => exact absurd rfl hnot

/-- From the middle of a traversal, with a writer waiting. -/
theorem calls_return_crowded :
    ∃ (s s' : Threads ℕ) (more : List (Action (Op ℕ) (Choice ℕ) Outside)),
      exec (step (program ℕ)) s more = some s' ∧ (∀ p ∈ s'.threads, p = .idle) ∧ s'.log.length = 3 := by
  obtain ⟨s, hs, hlog, hbusy⟩ : ∃ s, exec (step (program ℕ)) (start ℕ 3) (crowded.take 8) = some s ∧
      s.log.length = 1 ∧ s.threads.countP Phase.busy = 2 := ⟨_, rfl, rfl, rfl⟩
  obtain ⟨more, s', hexec, hidle, hlength⟩ := calls_return hs
  rw [hlog, hbusy] at hlength
  exact ⟨s, s', more, hexec, hidle, hlength⟩

end SafeUMap

end WebrtcStreamer
