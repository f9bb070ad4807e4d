import WebrtcStreamer.Lib.Monitor

/-!
# `Utils.BlockingQueue` — the bounded blocking queue (`src/utils/BlockingQueue.h`)

The four methods as critical sections of a monitor. `push`, `pop`, `popFor` and `stop` are the bodies of
the C++ methods between the `unique_lock` and its release: a `cond.wait(lock, pred)` whose predicate is
false is the outcome `wait`, everything else is `done`. `program` puts them under one mutex with the two
condition variables, for any number of threads.

The rest of the development uses the queue through `tryPush` and `tryPop`: one critical section that
finishes, as one step of a bigger system; a call that would wait is not enabled.
-/

namespace WebrtcStreamer

open Monitor

/-- `_queue`, `_maxSize` and `_stopped`. -/
structure BlockingQueue (α : Type) where
  queue : List α
  maxSize : Nat
  stopped : Bool
deriving DecidableEq

namespace BlockingQueue

/-- The two condition variables, `_condNotEmpty` and `_condNotFull`. -/
inductive Cond
  | notEmpty
  | notFull
deriving DecidableEq

/-- The calls. The timeout of `pop_for` has no value here: it may expire at any moment. -/
inductive Op (α : Type)
  | push (item : α)
  | pop
  | popFor
  | stop
deriving DecidableEq

/-- The ends of a call. `push` returns nothing: `pushed` tells its two exits apart. -/
inductive Ret (α : Type)
  | pushed (accepted : Bool)
  | popped (item : Option α)
  | stopped
deriving DecidableEq

variable {α : Type}

/-- The constructor. -/
def new (maxSize : Nat) : BlockingQueue α := { queue := [], maxSize := maxSize, stopped := false }

/-- The critical section of `push`. -/
def push (q : BlockingQueue α) (item : α) : Outcome (BlockingQueue α) Cond (Ret α) :=
  if q.queue.length < q.maxSize || q.stopped then
    if q.stopped then .done q (.pushed false) []  -- ignore pushes after stop
    else .done { q with queue := q.queue ++ [item] } (.pushed true) [.one .notEmpty]
  else .wait .notFull

/-- The critical section of `pop`. -/
def pop (q : BlockingQueue α) : Outcome (BlockingQueue α) Cond (Ret α) :=
  if !q.queue.isEmpty || q.stopped then
    match q.queue with
    | [] => .done q (.popped none) []  -- stopped and no items
    | item :: rest => .done { q with queue := rest } (.popped (some item)) [.one .notFull]
  else .wait .notEmpty

/-- The critical section of `pop_for`: `wait_for` gives up with the predicate still false once its timeout
    has `expired`. -/
def popFor (q : BlockingQueue α) (expired : Bool) : Outcome (BlockingQueue α) Cond (Ret α) :=
  let ready := !q.queue.isEmpty || q.stopped
  if !ready && !expired then .wait .notEmpty
  else
    match q.queue with
    | [] => .done q (.popped none) []  -- timeout or stopped
    | item :: rest => .done { q with queue := rest } (.popped (some item)) [.one .notFull]

/-- The critical section of `stop`. -/
def stop (q : BlockingQueue α) : BlockingQueue α := { q with stopped := true }

def body : Op α → Bool → BlockingQueue α → Outcome (BlockingQueue α) Cond (Ret α)
  | .push item, _, q => q.push item
  | .pop, _, q => q.pop
  | .popFor, expired, q => q.popFor expired
  | .stop, _, q => .done q.stop .stopped [.all .notEmpty, .all .notFull]

/-- The queue as a monitor; only `pop_for` waits with a timeout. -/
def program (α : Type) : Program (BlockingQueue α) (Op α) Cond (Ret α) where
  body := body
  timed
    | .popFor => true
    | _ => false

/-! ## What a critical section can do -/

/-- **When a call waits.** A `push` waits for room, a `pop` or an unexpired `pop_for` for an item, and
    nobody waits on a stopped queue. -/
theorem body_wait {op : Op α} {e : Bool} {q : BlockingQueue α} {c : Cond}
    (h : body op e q = .wait c) :
    q.stopped = false ∧
    ((c = .notFull ∧ (∃ x, op = .push x) ∧ q.maxSize ≤ q.queue.length) ∨
     (c = .notEmpty ∧ (op = .pop ∨ (op = .popFor ∧ e = false)) ∧ q.queue = [])) := by
  cases op with
  | push x =>
      simp only [body, push] at h
      split at h
      · split at h <;> exact absurd h (by simp)
      · rename_i hg
        simp only [Bool.or_eq_true, decide_eq_true_eq, not_or, Bool.not_eq_true] at hg
        exact ⟨hg.2, .inl ⟨(Outcome.wait.inj h).symm, ⟨x, rfl⟩, by omega⟩⟩
  | pop =>
      simp only [body, pop] at h
      split at h
      · split at h <;> exact absurd h (by simp)
      · rename_i hg
        simp only [Bool.or_eq_true, not_or, Bool.not_eq_true, Bool.not_eq_false',
          List.isEmpty_iff] at hg
        exact ⟨hg.2, .inr ⟨(Outcome.wait.inj h).symm, .inl rfl, hg.1⟩⟩
  | popFor =>
      simp only [body, popFor] at h
      split at h
      · rename_i hg
        simp only [Bool.and_eq_true, Bool.not_eq_true', Bool.or_eq_false_iff, Bool.not_eq_false',
          List.isEmpty_iff] at hg
        exact ⟨hg.1.2, .inr ⟨(Outcome.wait.inj h).symm, .inr ⟨rfl, hg.2⟩, hg.1.1⟩⟩
      · split at h <;> exact absurd h (by simp)
  | stop => exact absurd h (by simp [body])

/-- The completed critical sections, one constructor for each way out of a method. -/
inductive Done : Op α → Bool → BlockingQueue α → BlockingQueue α → Ret α → List (Signal Cond) → Prop
  | ignored {x e q} : q.stopped = true → Done (.push x) e q q (.pushed false) []
  | accepted {x e q} : q.stopped = false → q.queue.length < q.maxSize →
      Done (.push x) e q { q with queue := q.queue ++ [x] } (.pushed true) [.one .notEmpty]
  | empty {op e q} : q.queue = [] →
      (op = .pop ∧ q.stopped = true) ∨ (op = .popFor ∧ (q.stopped = true ∨ e = true)) →
      Done op e q q (.popped none) []
  | taken {op e q x rest} : q.queue = x :: rest → op = .pop ∨ op = .popFor →
      Done op e q { q with queue := rest } (.popped (some x)) [.one .notFull]
  | stopped {e q} : Done .stop e q q.stop .stopped [.all .notEmpty, .all .notFull]

/-- **How a call completes.** -/
theorem body_done {op : Op α} {e : Bool} {q q' : BlockingQueue α} {r : Ret α}
    {signals : List (Signal Cond)} (h : body op e q = .done q' r signals) :
    Done op e q q' r signals := by
  cases op with
  | push x =>
      simp only [body, push] at h
      split at h
      · rename_i hg
        split at h
        · rename_i hs
          obtain ⟨rfl, rfl, rfl⟩ := Outcome.done.inj h
          exact .ignored hs
        · rename_i hs
          obtain ⟨rfl, rfl, rfl⟩ := Outcome.done.inj h
          rw [Bool.not_eq_true] at hs
          exact .accepted hs (by simpa [hs] using hg)
      · exact absurd h (by simp)
  | pop =>
      simp only [body, pop] at h
      split at h
      · rename_i hg
        split at h
        · rename_i hq
          obtain ⟨rfl, rfl, rfl⟩ := Outcome.done.inj h
          exact .empty hq (.inl ⟨rfl, by simpa [hq] using hg⟩)
        · rename_i x rest hq
          obtain ⟨rfl, rfl, rfl⟩ := Outcome.done.inj h
          exact .taken hq (.inl rfl)
      · exact absurd h (by simp)
  | popFor =>
      simp only [body, popFor] at h
      split at h
      · exact absurd h (by simp)
      · rename_i hg
        split at h
        · rename_i hq
          obtain ⟨rfl, rfl, rfl⟩ := Outcome.done.inj h
          refine .empty hq (.inr ⟨rfl, ?_⟩)
          rw [hq] at hg
          cases hs : q.stopped <;> cases he : e <;> simp_all
        · rename_i x rest hq
          obtain ⟨rfl, rfl, rfl⟩ := Outcome.done.inj h
          exact .taken hq (.inr rfl)
  | stop =>
      obtain ⟨rfl, rfl, rfl⟩ := Outcome.done.inj h
      exact .stopped

/-! ## One critical section as an atomic step -/

/-- `push` as a step of its caller: enabled when it need not wait. -/
def tryPush (q : BlockingQueue α) (item : α) : Option (BlockingQueue α) :=
  match q.push item with
  | .wait _ => none
  | .done q' _ _ => some q'

/-- `pop` as a step of its caller: enabled when it need not wait. -/
def tryPop (q : BlockingQueue α) : Option (Option α × BlockingQueue α) :=
  match q.pop with
  | .done q' (.popped x) _ => some (x, q')
  | _ => none

/-- `pop_for` as a step of its caller; `expired` decides whether it may give up. -/
def tryPopFor (q : BlockingQueue α) (expired : Bool) : Option (Option α × BlockingQueue α) :=
  match q.popFor expired with
  | .done q' (.popped x) _ => some (x, q')
  | _ => none

/-- No room: `push` waits. -/
def Full (q : BlockingQueue α) : Prop := q.maxSize ≤ q.queue.length ∧ q.stopped = false

instance (q : BlockingQueue α) : Decidable q.Full := inferInstanceAs (Decidable (_ ∧ _))

theorem tryPush_cases {q q' : BlockingQueue α} {item : α} (h : q.tryPush item = some q') :
    (q.stopped = true ∧ q' = q) ∨
    (q.stopped = false ∧ q.queue.length < q.maxSize ∧ q' = { q with queue := q.queue ++ [item] }) := by
  simp only [tryPush] at h
  split at h
  · exact absurd h (by simp)
  · rename_i q₁ r signals hb
    obtain rfl := Option.some.inj h
    have hb' : body (.push item) false q = .done q₁ r signals := hb
    cases body_done hb' with
    | ignored hs => exact .inl ⟨hs, rfl⟩
    | accepted hs hl => exact .inr ⟨hs, hl, rfl⟩
    | empty _ hop => rcases hop with ⟨hop, _⟩ | ⟨hop, _⟩ <;> exact absurd hop (by simp)
    | taken _ hop => rcases hop with hop | hop <;> exact absurd hop (by simp)

/-- What is queued after a push was queued before it or is the item pushed. -/
theorem mem_of_tryPush {q q' : BlockingQueue α} {item x : α} (h : q.tryPush item = some q')
    (hx : x ∈ q'.queue) : x ∈ q.queue ∨ x = item := by
  rcases tryPush_cases h with ⟨-, rfl⟩ | ⟨-, -, rfl⟩
  · exact .inl hx
  · exact (List.mem_append.mp hx).imp_right List.mem_singleton.mp

/-- `push` is blocked exactly when the queue is full. -/
theorem tryPush_eq_none {q : BlockingQueue α} {item : α} : q.tryPush item = none ↔ q.Full := by
  unfold tryPush push Full
  cases hs : q.stopped with
  | true => simp
  | false =>
      by_cases hl : q.queue.length < q.maxSize
      · simp [hl]
      · simp [if_neg hl, Nat.not_lt.mp hl]

/-- What `pop` and `pop_for` hand out: the front item, or nothing from an empty queue. -/
theorem taken_or_empty {op : Op α} {e : Bool} {q q' : BlockingQueue α} {r : Option α}
    {signals : List (Signal Cond)} (h : body op e q = .done q' (.popped r) signals) :
    (q.queue = [] ∧ (q.stopped = true ∨ (op = .popFor ∧ e = true)) ∧ r = none ∧ q' = q) ∨
    (∃ x rest, q.queue = x :: rest ∧ r = some x ∧ q' = { q with queue := rest }) := by
  generalize hr : Ret.popped r = r' at h
  cases body_done h with
  | ignored _ | accepted _ _ | stopped => exact absurd hr (by simp)
  | empty hq hop =>
      refine .inl ⟨hq, ?_, Ret.popped.inj hr, rfl⟩
      rcases hop with ⟨_, hs⟩ | ⟨hop, hs | he⟩
      · exact .inl hs
      · exact .inl hs
      · exact .inr ⟨hop, he⟩
  | taken hq _ => exact .inr ⟨_, _, hq, Ret.popped.inj hr, rfl⟩

theorem tryPop_cases {q q' : BlockingQueue α} {r : Option α} (h : q.tryPop = some (r, q')) :
    (q.queue = [] ∧ q.stopped = true ∧ r = none ∧ q' = q) ∨
    (∃ x rest, q.queue = x :: rest ∧ r = some x ∧ q' = { q with queue := rest }) := by
  simp only [tryPop] at h
  split at h
  · rename_i q₁ x signals hb
    obtain ⟨rfl, rfl⟩ := Prod.mk.inj (Option.some.inj h)
    have hb' : body .pop false q = .done q₁ (.popped x) signals := hb
    rcases taken_or_empty hb' with ⟨hq, hs, hr, he⟩ | hx
    · exact .inl ⟨hq, hs.resolve_right (fun hp => absurd hp.1 (by simp)), hr, he⟩
    · exact .inr hx
  · exact absurd h (by simp)

/-- A pop that returns an item returns the front one. -/
theorem tryPop_some {q q' : BlockingQueue α} {x : α} (h : q.tryPop = some (some x, q')) :
    ∃ rest, q.queue = x :: rest ∧ q' = { q with queue := rest } := by
  obtain ⟨y, rest, hq, hr, he⟩ := (tryPop_cases h).resolve_left (by simp)
  obtain rfl := Option.some.inj hr
  exact ⟨rest, hq, he⟩

theorem tryPopFor_cases {q q' : BlockingQueue α} {r : Option α} {e : Bool}
    (h : q.tryPopFor e = some (r, q')) :
    (q.queue = [] ∧ (q.stopped = true ∨ e = true) ∧ r = none ∧ q' = q) ∨
    (∃ x rest, q.queue = x :: rest ∧ r = some x ∧ q' = { q with queue := rest }) := by
  simp only [tryPopFor] at h
  split at h
  · rename_i q₁ x signals hb
    obtain ⟨rfl, rfl⟩ := Prod.mk.inj (Option.some.inj h)
    have hb' : body .popFor e q = .done q₁ (.popped x) signals := hb
    rcases taken_or_empty hb' with ⟨hq, hs, hr, he⟩ | hx
    · exact .inl ⟨hq, hs.imp_right And.right, hr, he⟩
    · exact .inr hx
  · exact absurd h (by simp)

/-! ## Calls that do not wait -/

theorem stopped_of_tryPush {q q' : BlockingQueue α} {item : α} (h : q.tryPush item = some q') :
    q'.stopped = q.stopped := by
  rcases tryPush_cases h with ⟨-, rfl⟩ | ⟨-, -, rfl⟩ <;> rfl

theorem stopped_of_tryPop {q q' : BlockingQueue α} {r : Option α} (h : q.tryPop = some (r, q')) :
    q'.stopped = q.stopped := by
  rcases tryPop_cases h with ⟨-, -, -, rfl⟩ | ⟨x, rest, -, -, rfl⟩ <;> rfl

theorem maxSize_of_tryPush {q q' : BlockingQueue α} {item : α} (h : q.tryPush item = some q') :
    q'.maxSize = q.maxSize := by
  rcases tryPush_cases h with ⟨-, rfl⟩ | ⟨-, -, rfl⟩ <;> rfl

theorem maxSize_of_tryPop {q q' : BlockingQueue α} {r : Option α} (h : q.tryPop = some (r, q')) :
    q'.maxSize = q.maxSize := by
  rcases tryPop_cases h with ⟨-, -, -, rfl⟩ | ⟨x, rest, -, -, rfl⟩ <;> rfl

/-- Nobody waits to push into a stopped queue. -/
theorem tryPush_of_stopped {q : BlockingQueue α} (h : q.stopped = true) (item : α) :
    (q.tryPush item).isSome := by
  rw [Option.isSome_iff_ne_none]
  intro hnone
  have hfull := tryPush_eq_none.mp hnone
  exact absurd (h.symm.trans hfull.2) (by simp)

/-- Nobody waits for an item of a queue that has one or is stopped. -/
theorem tryPop_of_ready {q : BlockingQueue α} (h : q.queue ≠ [] ∨ q.stopped = true) : q.tryPop.isSome := by
  unfold tryPop pop
  cases hq : q.queue with
  | nil =>
      have hs : q.stopped = true := h.resolve_left (fun hne => hne hq)
      simp [hs]
  | cons x rest => simp

/-- `pop_for` returns when its timeout has expired. -/
theorem tryPopFor_of_expired (q : BlockingQueue α) : (q.tryPopFor true).isSome := by
  unfold tryPopFor popFor
  cases hq : q.queue <;> simp

end BlockingQueue

end WebrtcStreamer
