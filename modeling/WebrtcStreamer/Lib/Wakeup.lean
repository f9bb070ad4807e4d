import WebrtcStreamer.Lib.Monitor
import Mathlib.Algebra.Order.Group.Nat

/-!
# `Lib.Wakeup` — no lost wakeup, by counting

For one condition variable `c` of a monitor: whoever waits on `c` waits for *units* of something (items in
a queue, free slots). `Budget` says how many units a shared state has, and when the condition is shut for
good, so that nobody may wait at all. `Budget.Sound` is what the critical sections must respect:

* a call waits on `c` only when there are no units;
* whoever adds units notifies `c` once per unit, or everybody;
* a thread that was woken from `c` and re-acquires the mutex uses up a unit if there is one.

From this the invariant `Budget.Inv` follows for every run (`Budget.Sound.exec_inv`): while somebody sleeps
on `c`, the units are at most the threads already woken from `c` that have not re-acquired the mutex.
-/

namespace Monitor

open Transition

variable {σ Op Cond Res : Type} [DecidableEq Cond]

/-! ## Counting sleepers and woken threads -/

/-- How many threads sleep on `c`. -/
def asleep (c : Cond) (ths : List (Phase Op Cond)) : Nat := ths.countP (Phase.asleepOn c)

/-- How many threads have been woken from `c` and have not re-acquired the mutex. -/
def awake (c : Cond) (ths : List (Phase Op Cond)) : Nat := ths.countP (Phase.wokenFrom c)

/-- Moving one thread from phase `p` to `q` moves a count by what `p` and `q` contribute to it. -/
theorem countP_move {α : Type} {f : α → Bool} {l : List α} {t : Nat} {p q : α} (h : l[t]? = some p) :
    (l.set t q).countP f + (f p).toNat = l.countP f + (f q).toNat := by
  obtain ⟨hlt, hp⟩ := List.getElem?_eq_some_iff.mp h
  have hle : (f p).toNat ≤ l.countP f := by
    cases hf : f p
    · exact Nat.zero_le _
    · exact List.countP_pos_iff.mpr ⟨p, hp ▸ List.getElem_mem hlt, hf⟩
  rw [List.countP_set hlt, hp]
  cases hfp : f p <;> cases hfq : f q <;>
    simp only [hfp, Bool.toNat_false, Bool.toNat_true, if_true, Bool.false_eq_true, if_false] at hle ⊢ <;>
    omega

theorem asleep_move {c : Cond} {ths : List (Phase Op Cond)} {t : Nat} {p q : Phase Op Cond}
    (h : ths[t]? = some p) :
    asleep c (ths.set t q) + (p.asleepOn c).toNat = asleep c ths + (q.asleepOn c).toNat :=
  countP_move h

theorem awake_move {c : Cond} {ths : List (Phase Op Cond)} {t : Nat} {p q : Phase Op Cond}
    (h : ths[t]? = some p) :
    awake c (ths.set t q) + (p.wokenFrom c).toNat = awake c ths + (q.wokenFrom c).toNat :=
  countP_move h

theorem asleepOn_iff {c : Cond} {p : Phase Op Cond} : p.asleepOn c = true ↔ ∃ op, p = .waiting op c := by
  cases p with
  | waiting op d =>
      rw [Phase.asleepOn, beq_iff_eq]
      constructor
      · rintro rfl
        exact ⟨op, rfl⟩
      · rintro ⟨_, h⟩
        exact (Phase.waiting.inj h).2
  | idle | entering _ | woken _ _ _ => simp [Phase.asleepOn]

theorem asleep_eq_zero {c : Cond} {ths : List (Phase Op Cond)} :
    asleep c ths = 0 ↔ ths.any (Phase.asleepOn c) = false := by
  rw [asleep, List.countP_eq_zero, List.any_eq_false]

/-! ## What a notification does to the counts -/

/-- Waking a sleeper of `c` takes one from the sleepers of `c`, adds one to those woken from `c`, and
    leaves the counts of every other condition. -/
theorem counts_rouse {c : Cond} {ths : List (Phase Op Cond)} {t : Nat} {op : Op} {e : Bool}
    (h : ths[t]? = some (.waiting op c)) :
    asleep c ths = asleep c (ths.set t (.woken op c e)) + 1 ∧
    awake c (ths.set t (.woken op c e)) = awake c ths + 1 ∧
    ∀ d, d ≠ c → asleep d (ths.set t (.woken op c e)) = asleep d ths ∧
      awake d (ths.set t (.woken op c e)) = awake d ths := by
  refine ⟨?_, ?_, fun d hd => ⟨?_, ?_⟩⟩
  · have hm := asleep_move (c := c) (q := .woken op c e) h
    simpa [Phase.asleepOn] using hm.symm
  · have hm := awake_move (c := c) (q := .woken op c e) h
    simpa [Phase.wokenFrom] using hm
  · have hm := asleep_move (c := d) (q := .woken op c e) h
    simpa [Phase.asleepOn, beq_false_of_ne hd.symm] using hm
  · have hm := awake_move (c := d) (q := .woken op c e) h
    simpa [Phase.wokenFrom, beq_false_of_ne hd.symm] using hm

/-- `notify_one` wakes exactly one sleeper of `c` if there is one, and touches no other condition. -/
theorem notify_one_counts {c : Cond} {pick : Option Nat} {ths ths' : List (Phase Op Cond)}
    (h : notify (.one c) pick ths = some ths') :
    (asleep c ths = 0 ∧ ths' = ths) ∨
    (asleep c ths = asleep c ths' + 1 ∧ awake c ths' = awake c ths + 1 ∧
      ∀ d, d ≠ c → asleep d ths' = asleep d ths ∧ awake d ths' = awake d ths) := by
  cases pick with
  | none =>
      simp only [notify] at h
      split at h
      · exact absurd h (by simp)
      · rename_i hany
        exact .inl ⟨asleep_eq_zero.mpr (by simpa using hany), (Option.some.inj h).symm⟩
  | some t =>
      simp only [notify] at h
      split at h
      · rename_i p hp
        split at h
        · rename_i hsl
          obtain ⟨op, rfl⟩ := asleepOn_iff.mp hsl
          have hths : ths' = ths.set t (.woken op c false) := (Option.some.inj h).symm
          exact .inr (hths ▸ counts_rouse hp)
        · exact absurd h (by simp)
      · exact absurd h (by simp)

/-- `notify_all` on `c` leaves no sleeper of `c`. -/
theorem notify_all_asleep {c : Cond} {pick : Option Nat} {ths ths' : List (Phase Op Cond)}
    (h : notify (.all c) pick ths = some ths') : asleep c ths' = 0 := by
  obtain rfl := Option.some.inj h
  rw [asleep, List.countP_map, List.countP_eq_zero]
  intro p _ hsl
  rw [Function.comp_apply] at hsl
  obtain ⟨op, hp⟩ := asleepOn_iff.mp hsl
  split at hp
  · rename_i hc
    obtain ⟨op', rfl⟩ := asleepOn_iff.mp hc
    exact absurd hp (by simp [Phase.rouse])
  · rename_i hc
    exact hc (asleepOn_iff.mpr ⟨op, hp⟩)

/-- `notify_all` on `c` touches no other condition. -/
theorem notify_all_other {c d : Cond} {pick : Option Nat} {ths ths' : List (Phase Op Cond)}
    (h : notify (.all c) pick ths = some ths') (hd : d ≠ c) :
    asleep d ths' = asleep d ths ∧ awake d ths' = awake d ths := by
  obtain rfl := Option.some.inj h
  constructor
  all_goals
    refine (List.countP_map ..).trans (List.countP_congr (fun p _ => ?_))
    rw [Function.comp_apply]
    split
    · rename_i hc
      obtain ⟨op, rfl⟩ := asleepOn_iff.mp hc
      simp [Phase.rouse, Phase.asleepOn, Phase.wokenFrom, beq_false_of_ne hd.symm]
    · rfl

/-- **The notifications of one critical section, counted for `c`.** No sleeper of `c` is added; a
    `notify_all` leaves none; and while sleepers remain, every `notify_one` has woken one. -/
theorem notifies_counts {c : Cond} :
    ∀ {signals : List (Signal Cond)} {picks : List (Option Nat)} {ths ths' : List (Phase Op Cond)},
      notifies signals picks ths = some ths' →
      asleep c ths' ≤ asleep c ths ∧ (.all c ∈ signals → asleep c ths' = 0) ∧
      (0 < asleep c ths' → awake c ths' = awake c ths + signals.count (.one c)) := by
  intro signals
  induction signals with
  | nil =>
      intro picks ths ths' h
      obtain rfl := Option.some.inj h
      exact ⟨le_refl _, fun hm => absurd hm (by simp), fun _ => by simp⟩
  | cons g gs ih =>
      intro picks ths ths' h
      obtain ⟨ths₁, h₁, hrest⟩ := Option.bind_eq_some_iff.mp h
      obtain ⟨hle, hall, hone⟩ := ih hrest
      cases g with
      | one d =>
          have hmem : ∀ {x : Signal Cond}, x = .all c → x ∈ Signal.one d :: gs → x ∈ gs := by
            rintro x rfl hx
            exact (List.mem_cons.mp hx).resolve_left (by simp)
          by_cases hdc : d = c
          · subst hdc
            rw [List.count_cons_self]
            rcases notify_one_counts h₁ with ⟨hz, rfl⟩ | ⟨hs, hw, _⟩
            · exact ⟨hle, fun hm => hall (hmem rfl hm), fun hpos => by omega⟩
            · exact ⟨by omega, fun hm => hall (hmem rfl hm), fun hpos => by have := hone hpos; omega⟩
          · have hcnt : (Signal.one d :: gs).count (.one c) = gs.count (.one c) :=
              List.count_cons_of_ne (by simpa using hdc)
            rw [hcnt]
            rcases notify_one_counts h₁ with ⟨_, rfl⟩ | ⟨_, _, ho⟩
            · exact ⟨hle, fun hm => hall (hmem rfl hm), hone⟩
            · obtain ⟨hs, hw⟩ := ho c (fun hc => hdc hc.symm)
              exact ⟨by omega, fun hm => hall (hmem rfl hm), fun hpos => by have := hone hpos; omega⟩
      | all d =>
          have hcnt : (Signal.all d :: gs).count (.one c) = gs.count (.one c) :=
            List.count_cons_of_ne (by simp)
          rw [hcnt]
          by_cases hdc : d = c
          · subst hdc
            have hz := notify_all_asleep h₁
            exact ⟨by omega, fun _ => by omega, fun hpos => by omega⟩
          · obtain ⟨hs, hw⟩ := notify_all_other h₁ (fun hc => hdc hc.symm)
            refine ⟨by omega, fun hm => ?_, fun hpos => by have := hone hpos; omega⟩
            refine hall ((List.mem_cons.mp hm).resolve_left (fun he => hdc ?_))
            exact (Signal.all.inj he).symm

/-! ## The budget of a condition variable -/

/-- What the waiters of a condition variable wait for: `units s` many, or the condition is `shut s`. -/
structure Budget (σ : Type) where
  units : σ → Nat
  shut : σ → Prop

/-- A call that may wait on `c`. -/
def WaitsOn (M : Program σ Op Cond Res) (c : Cond) (op : Op) : Prop := ∃ e s, M.body op e s = .wait c

/-- **What the critical sections must respect** for the accounting of `c` to work. -/
structure Budget.Sound (B : Budget σ) (M : Program σ Op Cond Res) (c : Cond) : Prop where
  own : ∀ {op e s d}, WaitsOn M c op → M.body op e s = .wait d → d = c
  wait : ∀ {op e s}, M.body op e s = .wait c → B.units s = 0 ∧ ¬ B.shut s
  leave : ∀ {op e s st r signals}, M.body op e s = .done st r signals → ¬ B.shut s →
    .all c ∉ signals → (B.shut st → B.shut s) ∧ B.units st ≤ B.units s + signals.count (.one c) ∧
    (WaitsOn M c op → B.units st ≤ B.units s - 1 + signals.count (.one c))

/-- Nobody sleeps on a shut condition, and while somebody sleeps the units are covered by threads that
    are already on their way. -/
def Budget.Covered (B : Budget σ) (c : Cond) (s : State σ Op Cond Res) : Prop :=
  0 < asleep c s.threads → ¬ B.shut s.shared ∧ B.units s.shared ≤ awake c s.threads

/-- A thread that is or has been in the wait on `c` runs a call that waits on `c`. -/
def WaitersFit (M : Program σ Op Cond Res) (c : Cond) (ths : List (Phase Op Cond)) : Prop :=
  ∀ p ∈ ths, ∀ op, p.waitOf = some (op, c) → WaitsOn M c op

def Budget.Inv (B : Budget σ) (M : Program σ Op Cond Res) (c : Cond) (s : State σ Op Cond Res) : Prop :=
  WaitersFit M c s.threads ∧ B.Covered c s

variable {M : Program σ Op Cond Res} {B : Budget σ} {c : Cond}

/-! ## The invariant is preserved -/

/-- Notifications wake threads from the wait they are in. -/
theorem notify_waitOf {g : Signal Cond} {pick : Option Nat} {ths ths' : List (Phase Op Cond)}
    (h : notify g pick ths = some ths') : ∀ p' ∈ ths', ∃ p ∈ ths, p'.waitOf = p.waitOf := by
  cases g with
  | all c =>
      obtain rfl := Option.some.inj h
      intro p' hp'
      obtain ⟨p, hp, rfl⟩ := List.mem_map.mp hp'
      refine ⟨p, hp, ?_⟩
      split
      · exact p.waitOf_rouse
      · rfl
  | one c =>
      cases pick with
      | none =>
          simp only [notify] at h
          split at h
          · exact absurd h (by simp)
          · obtain rfl := Option.some.inj h
            exact fun p' hp' => ⟨p', hp', rfl⟩
      | some t =>
          simp only [notify] at h
          split at h
          · rename_i p hp
            split at h
            · obtain rfl := Option.some.inj h
              intro p' hp'
              rcases List.mem_or_eq_of_mem_set hp' with hmem | rfl
              · exact ⟨p', hmem, rfl⟩
              · exact ⟨p, List.mem_of_getElem? hp, p.waitOf_rouse⟩
            · exact absurd h (by simp)
          · exact absurd h (by simp)

theorem WaitersFit.notifies {signals : List (Signal Cond)} {picks : List (Option Nat)}
    {ths ths' : List (Phase Op Cond)} (hf : WaitersFit M c ths)
    (h : notifies signals picks ths = some ths') : WaitersFit M c ths' := by
  induction signals generalizing picks ths with
  | nil => exact Option.some.inj h ▸ hf
  | cons g gs ih =>
      obtain ⟨ths₁, h₁, hrest⟩ := Option.bind_eq_some_iff.mp h
      refine ih (fun p' hp' op hop => ?_) hrest
      obtain ⟨p, hp, heq⟩ := notify_waitOf h₁ p' hp'
      exact hf p hp op (heq ▸ hop)

omit [DecidableEq Cond] in
theorem WaitersFit.set {ths : List (Phase Op Cond)} (hf : WaitersFit M c ths) {t : Nat}
    {q : Phase Op Cond} (hq : ∀ op, q.waitOf = some (op, c) → WaitsOn M c op) :
    WaitersFit M c (ths.set t q) := by
  intro p hp
  rcases List.mem_or_eq_of_mem_set hp with hmem | rfl
  · exact hf p hmem
  · exact hq

/-- The thread that takes the mutex was not asleep; it counts as woken from `c` only if its call waits
    on `c`. -/
theorem ready_counts {p : Phase Op Cond} {op : Op} {e : Bool} (h : p.ready = some (op, e)) :
    p.asleepOn c = false ∧ (p.wokenFrom c = true → p.waitOf = some (op, c)) := by
  cases p with
  | entering _ => exact ⟨rfl, fun hw => absurd hw (by simp [Phase.wokenFrom])⟩
  | woken op' d e' =>
      obtain ⟨rfl, rfl⟩ := Prod.mk.inj (Option.some.inj h)
      exact ⟨rfl, fun hw => by rw [Phase.waitOf, beq_iff_eq.mp hw]⟩
  | idle | waiting _ _ => exact absurd h (by simp [Phase.ready])

/-- A critical section that ends in a wait keeps the accounting. -/
theorem Budget.Sound.inv_wait (hB : B.Sound M c) {s : State σ Op Cond Res} {t : Nat}
    {p : Phase Op Cond} {op : Op} {e : Bool} {d : Cond} (hi : B.Inv M c s)
    (hp : s.threads[t]? = some p) (hr : p.ready = some (op, e)) (hb : M.body op e s.shared = .wait d) :
    B.Inv M c { s with threads := s.threads.set t (.waiting op d) } := by
  obtain ⟨hfit, hcov⟩ := hi
  refine ⟨hfit.set (fun op' h => ?_), fun hpos => ?_⟩
  · obtain ⟨rfl, rfl⟩ := Prod.mk.inj (Option.some.inj h)
    exact ⟨e, s.shared, hb⟩
  · by_cases hd : d = c
    · -- the new sleeper found no units
      subst hd
      obtain ⟨hu, hs⟩ := hB.wait hb
      exact ⟨hs, by rw [hu]; exact Nat.zero_le _⟩
    · -- it sleeps elsewhere, so it did not come from `c` either
      obtain ⟨hns, hw⟩ := ready_counts (c := c) hr
      have hnw : p.wokenFrom c = false := by
        cases hwc : p.wokenFrom c
        · rfl
        · exact absurd (hB.own (hfit p (List.mem_of_getElem? hp) op (hw hwc)) hb) hd
      have ha := asleep_move (c := c) (q := .waiting op d) hp
      have hk := awake_move (c := c) (q := .waiting op d) hp
      rw [hns, Phase.asleepOn_waiting, beq_false_of_ne hd] at ha
      rw [hnw, Phase.wokenFrom_waiting] at hk
      change 0 < asleep c (s.threads.set t (.waiting op d)) at hpos
      show ¬ B.shut s.shared ∧ B.units s.shared ≤ awake c (s.threads.set t (.waiting op d))
      obtain ⟨hs, hu⟩ := hcov (by omega)
      exact ⟨hs, by omega⟩

/-- A completed critical section keeps the accounting. -/
theorem Budget.Sound.inv_done (hB : B.Sound M c) {s : State σ Op Cond Res} {t : Nat}
    {picks : List (Option Nat)} {p : Phase Op Cond} {op : Op} {e : Bool} {st : σ} {r : Res}
    {signals : List (Signal Cond)} {ths : List (Phase Op Cond)} {log : List (Op × Res)}
    (hi : B.Inv M c s) (hp : s.threads[t]? = some p) (hr : p.ready = some (op, e))
    (hb : M.body op e s.shared = .done st r signals)
    (hn : Monitor.notifies signals picks (s.threads.set t .idle) = some ths) :
    B.Inv M c { shared := st, threads := ths, log := log } := by
  obtain ⟨hfit, hcov⟩ := hi
  refine ⟨(hfit.set (fun op' h => absurd h (by simp [Phase.waitOf]))).notifies hn, fun hpos => ?_⟩
  obtain ⟨hns, hw⟩ := ready_counts (c := c) hr
  obtain ⟨hle, hall, hone⟩ := notifies_counts (c := c) hn
  have ha := asleep_move (c := c) (q := .idle) hp
  have hk := awake_move (c := c) (q := .idle) hp
  rw [hns, Phase.asleepOn_idle] at ha
  rw [Phase.wokenFrom_idle] at hk
  change 0 < asleep c ths at hpos
  show ¬ B.shut st ∧ B.units st ≤ awake c ths
  have hno : .all c ∉ signals := fun hm => by have := hall hm; omega
  obtain ⟨hs, hu⟩ := hcov (by omega)
  obtain ⟨hshut, hunits, hwoken⟩ := hB.leave hb hs hno
  refine ⟨fun h => hs (hshut h), ?_⟩
  rw [hone hpos]
  cases hwc : p.wokenFrom c with
  | false =>
      rw [hwc] at hk
      omega
  | true =>
      -- the thread left the woken ones and used up a unit
      have hlt := hwoken (hfit p (List.mem_of_getElem? hp) op (hw hwc))
      rw [hwc, Bool.toNat_true] at hk
      omega

/-- Leaving the wait, by a spurious wakeup or a timeout, keeps the accounting. -/
theorem Budget.Inv.wake {s : State σ Op Cond Res} {t : Nat} {op : Op} {d : Cond} {e : Bool}
    (hi : B.Inv M c s) (hp : s.threads[t]? = some (.waiting op d)) :
    B.Inv M c { s with threads := s.threads.set t (.woken op d e) } := by
  obtain ⟨hfit, hcov⟩ := hi
  refine ⟨hfit.set (fun op' h => ?_), fun hpos => ?_⟩
  · exact hfit _ (List.mem_of_getElem? hp) op' h
  · obtain ⟨hs, hw, ho⟩ := counts_rouse (e := e) hp
    change 0 < asleep c (s.threads.set t (.woken op d e)) at hpos
    show ¬ B.shut s.shared ∧ B.units s.shared ≤ awake c (s.threads.set t (.woken op d e))
    by_cases hd : d = c
    · subst hd
      obtain ⟨hns, hu⟩ := hcov (by omega)
      exact ⟨hns, by omega⟩
    · obtain ⟨hs', hw'⟩ := ho c (fun h => hd h.symm)
      rw [hs'] at hpos
      rw [hw']
      exact hcov hpos

/-- Moves between phases that are neither asleep nor fresh in the wait keep the accounting. -/
theorem Budget.Inv.move {s : State σ Op Cond Res} {t : Nat} {p q : Phase Op Cond}
    (hi : B.Inv M c s) (hp : s.threads[t]? = some p) (hs : q.asleepOn c = p.asleepOn c)
    (hw : q.wokenFrom c = p.wokenFrom c) (ho : q.waitOf = p.waitOf) :
    B.Inv M c { s with threads := s.threads.set t q } := by
  obtain ⟨hfit, hcov⟩ := hi
  refine ⟨hfit.set (fun op' h => hfit p (List.mem_of_getElem? hp) op' (ho ▸ h)), fun hpos => ?_⟩
  have ha := asleep_move (c := c) (q := q) hp
  have hk := awake_move (c := c) (q := q) hp
  rw [hs] at ha
  rw [hw] at hk
  change 0 < asleep c (s.threads.set t q) at hpos
  show ¬ B.shut s.shared ∧ B.units s.shared ≤ awake c (s.threads.set t q)
  obtain ⟨hns, hu⟩ := hcov (by omega)
  exact ⟨hns, by omega⟩

/-- **The accounting is preserved by every step.** -/
theorem Budget.Sound.inv_step (hB : B.Sound M c) {s s' : State σ Op Cond Res} {a : Action Op}
    (hi : B.Inv M c s) (h : step M s a = some s') : B.Inv M c s' := by
  rcases step_cases h with ⟨t, op, hp, rfl⟩ | ⟨t, op, d, e, hp, rfl⟩ | ⟨t, op, d, e, e', hp, rfl⟩ |
    ⟨t, p, op, e, d, hp, hr, hb, rfl⟩ | ⟨t, picks, p, op, e, st, r, signals, ths, _, hp, hr, hb, hn, rfl⟩
  · exact hi.move hp rfl rfl rfl
  · exact hi.wake hp
  · exact hi.move hp rfl rfl rfl
  · exact hB.inv_wait hi hp hr hb
  · exact hB.inv_done hi hp hr hb hn

theorem Budget.inv_init {s₀ : σ} {n : Nat} : B.Inv M c (init s₀ n) := by
  refine ⟨fun p hp op h => ?_, fun hpos => ?_⟩
  · rw [List.eq_of_mem_replicate hp] at h
    exact absurd h (by simp [Phase.waitOf])
  · exact absurd hpos (by simp [init, asleep, List.countP_replicate, Phase.asleepOn])

/-- **No lost wakeup.** In every reachable state, while a thread sleeps on `c`, the condition is not shut
    and its units are covered by the threads woken from `c` that have not re-acquired the mutex. -/
theorem Budget.Sound.exec_covered (hB : B.Sound M c) {s₀ : σ} {n : Nat} :
    ∀ as s, exec (step M) (init s₀ n) as = some s → B.Covered c s :=
  fun as s h => (exec_invariant Budget.inv_init (fun _ _ _ hi hst => hB.inv_step hi hst) as s h).2

end Monitor
