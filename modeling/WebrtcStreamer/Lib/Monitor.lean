import WebrtcStreamer.Lib.Transition

/-!
# `Lib.Monitor` — a mutex with condition variables, shared by any number of threads

A monitor protects a shared state `σ` with one mutex. A call runs a critical section (`Program.body`)
that either finishes, with a result and some notifications, or finds its predicate false and waits on a
condition variable. One `run` step is one critical section, from taking the mutex to giving it up:
everything it reads and writes is protected by the mutex, so nobody sees it half done.

The scheduler is free: any thread that is entering or has been woken may take the mutex next, so woken
threads compete with newcomers; `notify_one` wakes any one of the waiting threads; spurious wakeups
(`wake`) and timeouts (`expire`) happen at any time.

## Contents
- **The machine.** `Phase`, `Outcome`, `Program`, `notify`, `step`, and the inversion lemma `step_cases`.
- **Linearizability.** `exec_linearized`: every run is explained by the sequential execution of its log.

The counting argument behind "no lost wakeup" is in `Lib.Wakeup`.
-/

namespace Monitor

open Transition

/-- What a critical section does on its way out: `notify_one` or `notify_all`. -/
inductive Signal (Cond : Type)
  | one (c : Cond)
  | all (c : Cond)
deriving DecidableEq

/-- The end of a critical section: wait on `c` (the predicate was false and nothing was changed), or
    leave with the new shared state, a result and the notifications made. -/
inductive Outcome (σ Cond Res : Type)
  | wait (c : Cond)
  | done (s : σ) (r : Res) (signals : List (Signal Cond))

/-- Where a thread stands. `expired` says that a timed wait has run out. -/
inductive Phase (Op Cond : Type)
  | idle
  | entering (op : Op)
  | waiting (op : Op) (c : Cond)
  | woken (op : Op) (c : Cond) (expired : Bool)
deriving DecidableEq

/-- The critical sections of a monitor, and which calls wait with a timeout. `body op expired s` is what
    `op` does when it holds the mutex in shared state `s`. -/
structure Program (σ Op Cond Res : Type) where
  body : Op → Bool → σ → Outcome σ Cond Res
  timed : Op → Bool

/-- `log` lists the completed calls in the order of their critical sections. -/
structure State (σ Op Cond Res : Type) where
  shared : σ
  threads : List (Phase Op Cond)
  log : List (Op × Res)

/-- `run t picks` lets thread `t` take the mutex; `picks` resolves the choices of its `notify_one`s. -/
inductive Action (Op : Type)
  | call (t : Nat) (op : Op)
  | run (t : Nat) (picks : List (Option Nat))
  | wake (t : Nat)
  | expire (t : Nat)

variable {σ Op Cond Res : Type} [DecidableEq Cond]

namespace Phase

/-- Asleep on `c`: waiting without having been woken. -/
def asleepOn (c : Cond) : Phase Op Cond → Bool
  | .waiting _ d => d == c
  | _ => false

/-- Woken from `c`, the mutex not re-acquired yet. -/
def wokenFrom (c : Cond) : Phase Op Cond → Bool
  | .woken _ d _ => d == c
  | _ => false

section
variable {op : Op} {c d : Cond} {e : Bool}

@[simp] theorem asleepOn_waiting : (Phase.waiting op d).asleepOn c = (d == c) := rfl
@[simp] theorem asleepOn_idle : (Phase.idle : Phase Op Cond).asleepOn c = false := rfl
@[simp] theorem wokenFrom_idle : (Phase.idle : Phase Op Cond).wokenFrom c = false := rfl
@[simp] theorem wokenFrom_waiting : (Phase.waiting op d).wokenFrom c = false := rfl

end

/-- Leave the wait; a thread that does not wait is left alone. -/
def rouse : Phase Op Cond → Phase Op Cond
  | .waiting op c => .woken op c false
  | p => p

/-- The wait a thread is in, or has just been woken from. -/
def waitOf : Phase Op Cond → Option (Op × Cond)
  | .waiting op c => some (op, c)
  | .woken op c _ => some (op, c)
  | _ => none

omit [DecidableEq Cond] in
theorem waitOf_rouse (p : Phase Op Cond) : p.rouse.waitOf = p.waitOf := by
  cases p <;> rfl

/-- The call a thread is in, with its expiry, when it may take the mutex. -/
def ready : Phase Op Cond → Option (Op × Bool)
  | .entering op => some (op, false)
  | .woken op _ expired => some (op, expired)
  | _ => none

end Phase

/-- One notification. `notify_one` wakes the picked thread if it waits on `c`; it wakes nobody only when
    nobody waits. -/
def notify : Signal Cond → Option Nat → List (Phase Op Cond) → Option (List (Phase Op Cond))
  | .all c, _, ths => some (ths.map (fun p => if p.asleepOn c then p.rouse else p))
  | .one c, none, ths => if ths.any (Phase.asleepOn c) then none else some ths
  | .one c, some t, ths =>
      match ths[t]? with
      | some p => if p.asleepOn c then some (ths.set t p.rouse) else none
      | none => none

/-- The notifications of one critical section, in order. -/
def notifies : List (Signal Cond) → List (Option Nat) → List (Phase Op Cond) →
    Option (List (Phase Op Cond))
  | [], _, ths => some ths
  | g :: gs, picks, ths =>
      (notify g (picks.head?.getD none) ths).bind (fun ths' => notifies gs picks.tail ths')

/-- Thread `t` holds the mutex and runs the critical section of `op`. -/
def attempt (M : Program σ Op Cond Res) (s : State σ Op Cond Res) (t : Nat)
    (picks : List (Option Nat)) (op : Op) (expired : Bool) : Option (State σ Op Cond Res) :=
  match M.body op expired s.shared with
  | .wait c => some { s with threads := s.threads.set t (.waiting op c) }
  | .done st r signals =>
      (notifies signals picks (s.threads.set t .idle)).map
        (fun ths => { shared := st, threads := ths, log := s.log ++ [(op, r)] })

/-- One scheduling decision. -/
def step (M : Program σ Op Cond Res) (s : State σ Op Cond Res) :
    Action Op → Option (State σ Op Cond Res)
  | .call t op =>
      match s.threads[t]? with
      | some .idle => some { s with threads := s.threads.set t (.entering op) }
      | _ => none
  | .run t picks =>
      match (s.threads[t]?).bind Phase.ready with
      | some (op, expired) => attempt M s t picks op expired
      | none => none
  | .wake t =>
      match s.threads[t]? with
      | some (.waiting op c) => some { s with threads := s.threads.set t (.woken op c false) }
      | _ => none
  | .expire t =>
      match s.threads[t]? with
      | some (.waiting op c) =>
          if M.timed op then some { s with threads := s.threads.set t (.woken op c true) } else none
      | some (.woken op c _) =>
          if M.timed op then some { s with threads := s.threads.set t (.woken op c true) } else none
      | _ => none

/-- `n` idle threads around a fresh shared state. -/
def init (s₀ : σ) (n : Nat) : State σ Op Cond Res :=
  { shared := s₀, threads := List.replicate n .idle, log := [] }

variable {M : Program σ Op Cond Res}

/-! ## What one step can do -/

/-- **Inversion of a step.** A thread moves between phases with the shared state and the log untouched
    (a call, a wakeup, a timeout, or a critical section that ends in a wait), or it completes a call. -/
theorem step_cases {s s' : State σ Op Cond Res} {a : Action Op} (h : step M s a = some s') :
    (∃ t op, s.threads[t]? = some .idle ∧ s' = { s with threads := s.threads.set t (.entering op) }) ∨
    (∃ t op c e, s.threads[t]? = some (.waiting op c) ∧
      s' = { s with threads := s.threads.set t (.woken op c e) }) ∨
    (∃ t op c e e', s.threads[t]? = some (.woken op c e) ∧
      s' = { s with threads := s.threads.set t (.woken op c e') }) ∨
    (∃ t p op e c, s.threads[t]? = some p ∧ p.ready = some (op, e) ∧
      M.body op e s.shared = .wait c ∧ s' = { s with threads := s.threads.set t (.waiting op c) }) ∨
    (∃ t picks p op e st r signals ths, a = .run t picks ∧ s.threads[t]? = some p ∧
      p.ready = some (op, e) ∧ M.body op e s.shared = .done st r signals ∧
      notifies signals picks (s.threads.set t .idle) = some ths ∧
      s' = { shared := st, threads := ths, log := s.log ++ [(op, r)] }) := by
  cases a with
  | call t op =>
      simp only [step] at h
      split at h
      · rename_i hp
        exact .inl ⟨t, op, hp, (Option.some.inj h).symm⟩
      · exact absurd h (by simp)
  | run t picks =>
      simp only [step] at h
      split at h
      · rename_i op e hr
        obtain ⟨p, hp, hready⟩ := Option.bind_eq_some_iff.mp hr
        unfold attempt at h
        split at h
        · rename_i c hb
          exact .inr (.inr (.inr (.inl ⟨t, p, op, e, c, hp, hready, hb, (Option.some.inj h).symm⟩)))
        · rename_i st r signals hb
          obtain ⟨ths, hths, hs'⟩ := Option.map_eq_some_iff.mp h
          exact .inr (.inr (.inr (.inr
            ⟨t, picks, p, op, e, st, r, signals, ths, rfl, hp, hready, hb, hths, hs'.symm⟩)))
      · exact absurd h (by simp)
  | wake t =>
      simp only [step] at h
      split at h
      · rename_i op c hp
        exact .inr (.inl ⟨t, op, c, false, hp, (Option.some.inj h).symm⟩)
      · exact absurd h (by simp)
  | expire t =>
      simp only [step] at h
      split at h
      · rename_i op c hp
        split at h
        · exact .inr (.inl ⟨t, op, c, true, hp, (Option.some.inj h).symm⟩)
        · exact absurd h (by simp)
      · rename_i op c e hp
        split at h
        · exact .inr (.inr (.inl ⟨t, op, c, e, true, hp, (Option.some.inj h).symm⟩))
        · exact absurd h (by simp)
      · exact absurd h (by simp)

/-- **The step that completes a call.** The log grows only when some thread runs a critical section of
    that call to its end. -/
theorem step_completes {s s' : State σ Op Cond Res} {a : Action Op} {op : Op} {r : Res}
    (h : step M s a = some s') (hlog : s'.log = s.log ++ [(op, r)]) :
    ∃ t picks p e signals, a = .run t picks ∧ s.threads[t]? = some p ∧ p.ready = some (op, e) ∧
      M.body op e s.shared = .done s'.shared r signals := by
  have hne : ∀ l : List (Op × Res), l ≠ l ++ [(op, r)] := fun l he => by
    have := congrArg List.length he
    simp at this
  rcases step_cases h with ⟨_, _, _, rfl⟩ | ⟨_, _, _, _, _, rfl⟩ | ⟨_, _, _, _, _, _, rfl⟩ |
    ⟨_, _, _, _, _, _, _, _, rfl⟩ |
    ⟨t, picks, p, op', e, st, r', signals, ths, ha, hp, hr, hb, _, rfl⟩
  · exact absurd hlog (hne _)
  · exact absurd hlog (hne _)
  · exact absurd hlog (hne _)
  · exact absurd hlog (hne _)
  · obtain ⟨rfl, rfl⟩ := Prod.mk.inj (List.singleton_inj.mp (List.append_cancel_left hlog))
    exact ⟨t, picks, p, e, signals, ha, hp, hr, hb⟩

/-- A notification can always be made: some choice of `notify_one` is the right one. -/
theorem exists_notify (g : Signal Cond) (ths : List (Phase Op Cond)) :
    ∃ pick ths', notify g pick ths = some ths' := by
  cases g with
  | all c => exact ⟨none, _, rfl⟩
  | one c =>
      cases hany : ths.any (Phase.asleepOn c) with
      | false => exact ⟨none, ths, by simp [notify, hany]⟩
      | true =>
          obtain ⟨p, hp, hsl⟩ := List.any_eq_true.mp hany
          obtain ⟨t, ht⟩ := List.getElem?_of_mem hp
          exact ⟨some t, ths.set t p.rouse, by simp only [notify, ht, hsl, if_true]⟩

theorem exists_notifies (signals : List (Signal Cond)) (ths : List (Phase Op Cond)) :
    ∃ picks ths', notifies signals picks ths = some ths' := by
  induction signals generalizing ths with
  | nil => exact ⟨[], ths, rfl⟩
  | cons g gs ih =>
      obtain ⟨pick, ths₁, h₁⟩ := exists_notify g ths
      obtain ⟨picks, ths₂, h₂⟩ := ih ths₁
      refine ⟨pick :: picks, ths₂, ?_⟩
      rw [notifies, List.head?_cons, Option.getD_some, h₁]
      exact h₂

/-- A thread that may take the mutex and finds its predicate true completes its call. -/
theorem exists_run {s : State σ Op Cond Res} {t : Nat} {p : Phase Op Cond} {op : Op} {e : Bool} {st : σ}
    {r : Res} {signals : List (Signal Cond)} (hp : s.threads[t]? = some p)
    (hr : p.ready = some (op, e)) (hb : M.body op e s.shared = .done st r signals) :
    ∃ picks s', step M s (.run t picks) = some s' ∧ s'.log = s.log ++ [(op, r)] ∧ s'.shared = st := by
  obtain ⟨picks, ths, hn⟩ := exists_notifies signals (s.threads.set t .idle)
  refine ⟨picks, { shared := st, threads := ths, log := s.log ++ [(op, r)] }, ?_, rfl, rfl⟩
  have hready : (s.threads[t]?).bind Phase.ready = some (op, e) := by rw [hp]; exact hr
  simp only [step, hready, attempt, hb, hn, Option.map_some]

/-! ## Linearizability -/

/-- The sequential executions of a monitor: the calls of `log`, one after the other, each finding its
    predicate true, lead from `s₀` to `s`. -/
inductive Linearized (M : Program σ Op Cond Res) (s₀ : σ) : List (Op × Res) → σ → Prop
  | nil : Linearized M s₀ [] s₀
  | snoc {log : List (Op × Res)} {s st : σ} {op : Op} {e : Bool} {r : Res}
      {signals : List (Signal Cond)} :
      Linearized M s₀ log s → M.body op e s = .done st r signals →
      Linearized M s₀ (log ++ [(op, r)]) st

/-- **Linearizability.** In every reachable state the shared state is the one that the completed calls,
    executed sequentially in the order of their critical sections, lead to. -/
theorem exec_linearized {s₀ : σ} {n : Nat} :
    ∀ as s, exec (step M) (init s₀ n) as = some s → Linearized M s₀ s.log s.shared := by
  refine exec_invariant Linearized.nil (fun s a s' hi hst => ?_)
  rcases step_cases hst with ⟨_, _, _, rfl⟩ | ⟨_, _, _, _, _, rfl⟩ | ⟨_, _, _, _, _, _, rfl⟩ |
    ⟨_, _, _, _, _, _, _, _, rfl⟩ | ⟨_, _, _, _, _, _, _, _, _, _, _, _, hb, _, rfl⟩
  · exact hi
  · exact hi
  · exact hi
  · exact hi
  · exact hi.snoc hb

end Monitor
