import WebrtcStreamer.Lib.Wakeup
import WebrtcStreamer.Utils.BlockingQueue

/-!
# `Utils.BlockingQueueCorrect` — the queue under any number of threads

Two results about `BlockingQueue.program`, for every capacity, every number of threads and every
interleaving of calls, critical sections, notifications, spurious wakeups and timeouts:

* `bounded_fifo` — nothing is lost, duplicated or reordered, and the bound is kept. It rests on
  `Monitor.exec_linearized`: the log is a sequential history, and `linearized_fifo` is an induction on it.
* `no_lost_wakeup` — sleeping consumers and producers are covered by pending wakeups. It instantiates
  `Monitor.Budget` twice: items for the consumers, free slots for the producers.
-/

namespace WebrtcStreamer

namespace BlockingQueue

open Monitor Transition

variable {α : Type}

/-- The states of a queue shared by threads. -/
abbrev Threads (α : Type) := State (BlockingQueue α) (Op α) Cond (Ret α)

/-- `n` threads around a new queue. -/
def start (maxSize n : Nat) : Threads α := Monitor.init (new maxSize) n

/-! ## The history of a queue -/

def acceptedItem : Op α × Ret α → Option α
  | (.push item, .pushed true) => some item
  | _ => none

def returnedItem : Op α × Ret α → Option α
  | (_, .popped item) => item
  | _ => none

/-- The items that pushes inserted, in order. -/
def accepted (log : List (Op α × Ret α)) : List α := log.filterMap acceptedItem

/-- The items handed out, in order. -/
def returned (log : List (Op α × Ret α)) : List α := log.filterMap returnedItem

theorem accepted_snoc (log : List (Op α × Ret α)) (call : Op α × Ret α) :
    accepted (log ++ [call]) = accepted log ++ (acceptedItem call).toList := by
  rw [accepted, List.filterMap_append, accepted]
  cases h : acceptedItem call <;> simp [h]

theorem returned_snoc (log : List (Op α × Ret α)) (call : Op α × Ret α) :
    returned (log ++ [call]) = returned log ++ (returnedItem call).toList := by
  rw [returned, List.filterMap_append, returned]
  cases h : returnedItem call <;> simp [h]

/-- What a sequential history says about the queue it leads to. -/
structure History (maxSize : Nat) (log : List (Op α × Ret α)) (q : BlockingQueue α) : Prop where
  fifo : accepted log = returned log ++ q.queue
  bound : q.queue.length ≤ maxSize
  capacity : q.maxSize = maxSize
  stopped : (Op.stop, Ret.stopped) ∈ log → q.stopped = true
  closed : ∀ pre post, log = pre ++ (Op.stop, Ret.stopped) :: post → accepted post = []

/-- A call that accepts nothing keeps the log closed after its `stop`s. -/
theorem closed_snoc {log : List (Op α × Ret α)} {call : Op α × Ret α}
    (hc : ∀ pre post, log = pre ++ (Op.stop, Ret.stopped) :: post → accepted post = [])
    (hn : (Op.stop, Ret.stopped) ∈ log → acceptedItem call = none) :
    ∀ pre post, log ++ [call] = pre ++ (Op.stop, Ret.stopped) :: post → accepted post = [] := by
  intro pre post heq
  rcases List.eq_nil_or_concat post with rfl | ⟨post', last, rfl⟩
  · rfl
  · rw [List.concat_eq_append] at heq ⊢
    rw [← List.cons_append, ← List.append_assoc] at heq
    obtain ⟨hlog, hlast⟩ := List.append_inj' heq rfl
    obtain rfl := List.singleton_inj.mp hlast
    have hmem : (Op.stop, Ret.stopped) ∈ log := by rw [hlog]; simp
    rw [accepted_snoc, hc pre post' hlog, hn hmem]
    rfl

/-- **One more sequential call.** -/
theorem History.snoc {maxSize : Nat} {log : List (Op α × Ret α)} {q q' : BlockingQueue α} {op : Op α}
    {e : Bool} {r : Ret α} {signals : List (Signal Cond)} (h : History maxSize log q)
    (hd : Done op e q q' r signals) : History maxSize (log ++ [(op, r)]) q' := by
  have hmem : ∀ {r' : Ret α}, (Op.stop, Ret.stopped) ∈ log ++ [(op, r')] →
      (Op.stop, Ret.stopped) ≠ (op, r') → (Op.stop, Ret.stopped) ∈ log := fun hm hne =>
    (List.mem_append.mp hm).resolve_right (fun hx => hne (List.mem_singleton.mp hx))
  cases hd with
  | ignored hs =>
      refine ⟨?_, h.bound, h.capacity, fun _ => hs, closed_snoc h.closed (fun _ => rfl)⟩
      rw [accepted_snoc, returned_snoc, h.fifo]
      simp [acceptedItem, returnedItem]
  | accepted hs hl =>
      refine ⟨?_, ?_, h.capacity, fun hm => h.stopped (hmem hm (by simp)), ?_⟩
      · rw [accepted_snoc, returned_snoc, h.fifo]
        simp [acceptedItem, returnedItem]
      · have hcap := h.capacity
        simp only [List.length_append, List.length_singleton]
        omega
      · refine closed_snoc h.closed (fun hm => ?_)
        exact absurd (h.stopped hm) (by simp [hs])
  | empty hq hop =>
      refine ⟨?_, h.bound, h.capacity, fun hm => h.stopped (hmem hm (by simp)),
        closed_snoc h.closed (fun _ => by rcases hop with ⟨rfl, _⟩ | ⟨rfl, _⟩ <;> rfl)⟩
      have ha : acceptedItem (op, Ret.popped none) = none := by
        rcases hop with ⟨rfl, _⟩ | ⟨rfl, _⟩ <;> rfl
      rw [accepted_snoc, returned_snoc, h.fifo, ha]
      simp [returnedItem]
  | @taken _ _ _ x rest hq hop =>
      have ha : acceptedItem (op, Ret.popped (some x)) = none := by
        rcases hop with rfl | rfl <;> rfl
      refine ⟨?_, ?_, h.capacity, fun hm => h.stopped (hmem hm (by simp)),
        closed_snoc h.closed (fun _ => ha)⟩
      · rw [accepted_snoc, returned_snoc, h.fifo, ha, hq]
        simp [returnedItem]
      · have hb := h.bound
        rw [hq, List.length_cons] at hb
        exact Nat.le_of_succ_le hb
  | stopped =>
      refine ⟨?_, h.bound, h.capacity, fun _ => rfl, closed_snoc h.closed (fun _ => rfl)⟩
      rw [accepted_snoc, returned_snoc, h.fifo]
      simp [acceptedItem, returnedItem, stop]

theorem linearized_history {maxSize : Nat} {log : List (Op α × Ret α)} {q : BlockingQueue α}
    (h : Linearized (program α) (new maxSize) log q) : History maxSize log q := by
  induction h with
  | nil => exact ⟨rfl, Nat.zero_le _, rfl, by simp, by simp⟩
  | snoc _ hb ih => exact ih.snoc (body_done hb)

/-- The history of every reachable state. -/
theorem exec_history {maxSize n : Nat} {as : List (Action (Op α))} {s : Threads α}
    (h : exec (step (program α)) (start maxSize n) as = some s) : History maxSize s.log s.shared :=
  linearized_history (exec_linearized as s h)

/-- **Bounded FIFO without loss or duplication.** In every reachable state the accepted items are the
    returned ones followed by the contents, and the bound holds; nothing is accepted after `stop`; a `pop`
    comes back empty-handed only from a stopped empty queue, a `pop_for` only from an empty queue that is
    stopped or after its timeout has expired; and a consumer that gets the mutex while there are items,
    stopped or not, can complete its call and only by taking the front item. -/
theorem bounded_fifo (maxSize n : Nat) (as : List (Action (Op α))) (s : Threads α)
    (h : exec (step (program α)) (start maxSize n) as = some s) :
    accepted s.log = returned s.log ++ s.shared.queue ∧
    s.shared.queue.length ≤ maxSize ∧
    (∀ pre post, s.log = pre ++ (.stop, .stopped) :: post → accepted post = []) ∧
    (∀ a s', step (program α) s a = some s' → s'.log = s.log ++ [(.pop, .popped none)] →
      s.shared.stopped = true ∧ s.shared.queue = []) ∧
    (∀ a s', step (program α) s a = some s' → s'.log = s.log ++ [(.popFor, .popped none)] →
      s.shared.queue = [] ∧ (s.shared.stopped = true ∨
        ∃ t picks c, a = .run t picks ∧ s.threads[t]? = some (.woken .popFor c true))) ∧
    (∀ t p op e item rest, s.threads[t]? = some p → p.ready = some (op, e) →
      op = .pop ∨ op = .popFor → s.shared.queue = item :: rest →
      (∃ picks s', step (program α) s (.run t picks) = some s') ∧
      ∀ picks s', step (program α) s (.run t picks) = some s' →
        s'.log = s.log ++ [(op, .popped (some item))] ∧ s'.shared.queue = rest) := by
  have hh := exec_history h
  refine ⟨hh.fifo, hh.bound, hh.closed, fun a s' hst hlog => ?_, fun a s' hst hlog => ?_, ?_⟩
  · obtain ⟨t, picks, p, e, signals, _, _, _, hb⟩ := step_completes hst hlog
    change body .pop e s.shared = _ at hb
    rcases taken_or_empty hb with ⟨hq, hs | ⟨hop, _⟩, _, _⟩ | ⟨_, _, _, hr, _⟩
    · exact ⟨hs, hq⟩
    · exact absurd hop (by simp)
    · exact absurd hr (by simp)
  · obtain ⟨t, picks, p, e, signals, ha, hp, hr, hb⟩ := step_completes hst hlog
    change body .popFor e s.shared = _ at hb
    rcases taken_or_empty hb with ⟨hq, hs | ⟨_, rfl⟩, _, _⟩ | ⟨_, _, _, hr, _⟩
    · exact ⟨hq, .inl hs⟩
    · refine ⟨hq, .inr ?_⟩
      cases p with
      | woken op c e =>
          obtain ⟨rfl, rfl⟩ := Prod.mk.inj (Option.some.inj hr)
          exact ⟨t, picks, c, ha, hp⟩
      | entering op => exact absurd (Prod.mk.inj (Option.some.inj hr)).2 (by simp)
      | idle | waiting _ _ => exact absurd hr (by simp [Phase.ready])
    · exact absurd hr (by simp)
  · intro t p op e item rest hp hr hop hq
    have hb : ∃ signals, body op e s.shared =
        .done { s.shared with queue := rest } (.popped (some item)) signals := by
      rcases hop with rfl | rfl
      · exact ⟨[.one .notFull], by simp [body, pop, hq]⟩
      · exact ⟨[.one .notFull], by simp [body, popFor, hq]⟩
    obtain ⟨signals, hb⟩ := hb
    refine ⟨?_, fun picks s' hst => ?_⟩
    · obtain ⟨picks, s', hst, _⟩ := exists_run (M := program α) hp hr hb
      exact ⟨picks, s', hst⟩
    · have hready : (s.threads[t]?).bind Phase.ready = some (op, e) := by rw [hp]; exact hr
      simp only [step, hready, attempt, program, hb] at hst
      obtain ⟨ths, _, rfl⟩ := Option.map_eq_some_iff.mp hst
      exact ⟨rfl, rfl⟩

/-- The law at work on a producer and a consumer: the consumer sleeps on the empty queue, is notified by
    the push and takes the item. -/
theorem bounded_fifo_handover :
    let s : Threads Nat :=
      { shared := { queue := [], maxSize := 1, stopped := false }
        threads := [.idle, .idle]
        log := [(.push 7, .pushed true), (.pop, .popped (some 7))] }
    exec (step (program Nat)) (start 1 2)
        [.call 0 .pop, .run 0 [], .call 1 (.push 7), .run 1 [some 0], .run 0 [none]] = some s ∧
      accepted s.log = returned s.log ++ s.shared.queue := by
  intro s
  have hrun : exec (step (program Nat)) (start 1 2)
      [.call 0 .pop, .run 0 [], .call 1 (.push 7), .run 1 [some 0], .run 0 [none]] = some s := rfl
  exact ⟨hrun, (bounded_fifo 1 2 _ s hrun).1⟩

/-! ## Wakeups -/

/-- What consumers wait for: items, or the stop. -/
def items : Budget (BlockingQueue α) where
  units q := q.queue.length
  shut q := q.stopped = true

/-- What producers wait for: free slots, or the stop. -/
def slots : Budget (BlockingQueue α) where
  units q := q.maxSize - q.queue.length
  shut q := q.stopped = true

theorem waitsOn_notEmpty {op : Op α} (h : WaitsOn (program α) .notEmpty op) :
    op = .pop ∨ op = .popFor := by
  obtain ⟨e, q, hb⟩ := h
  rcases (body_wait hb).2 with ⟨hc, _⟩ | ⟨_, hop | hop, _⟩
  · exact absurd hc (by simp)
  · exact .inl hop
  · exact .inr hop.1

theorem waitsOn_notFull {op : Op α} (h : WaitsOn (program α) .notFull op) : ∃ x, op = .push x := by
  obtain ⟨e, q, hb⟩ := h
  rcases (body_wait hb).2 with ⟨_, hx, _⟩ | ⟨hc, _⟩
  · exact hx
  · exact absurd hc (by simp)

/-- Every insertion notifies `_condNotEmpty`, and a woken consumer takes an item if there is one. -/
theorem items_sound : (@items α).Sound (program α) .notEmpty where
  own := by
    intro op e q d hw hb
    rcases (body_wait hb).2 with ⟨_, ⟨x, rfl⟩, _⟩ | ⟨hd, _⟩
    · exact absurd (waitsOn_notEmpty hw) (by simp)
    · exact hd
  wait := by
    intro op e q hb
    obtain ⟨hs, ⟨hc, _⟩ | ⟨_, _, hq⟩⟩ := body_wait hb
    · exact absurd hc (by simp)
    · exact ⟨by simp [items, hq], by simp [items, hs]⟩
  leave := by
    intro op e q q' r signals hb _ hall
    cases body_done hb with
    | ignored _ => exact ⟨id, by simp, fun hw => absurd (waitsOn_notEmpty hw) (by simp)⟩
    | accepted _ _ => exact ⟨id, by simp [items], fun hw => absurd (waitsOn_notEmpty hw) (by simp)⟩
    | empty hq _ => exact ⟨id, by simp, fun _ => by simp [items, hq]⟩
    | taken hq _ => exact ⟨id, by simp [items, hq], fun _ => by simp [items, hq]⟩
    | stopped => exact absurd hall (by simp)

/-- Every removal notifies `_condNotFull`, and a woken producer fills a slot if there is one. -/
theorem slots_sound : (@slots α).Sound (program α) .notFull where
  own := by
    intro op e q d hw hb
    rcases (body_wait hb).2 with ⟨hd, _⟩ | ⟨_, hop, _⟩
    · exact hd
    · obtain ⟨x, rfl⟩ := waitsOn_notFull hw
      exact absurd hop (by simp)
  wait := by
    intro op e q hb
    obtain ⟨hs, ⟨_, _, hl⟩ | ⟨hc, _⟩⟩ := body_wait hb
    · exact ⟨Nat.sub_eq_zero_of_le hl, by simp [slots, hs]⟩
    · exact absurd hc (by simp)
  leave := by
    intro op e q q' r signals hb hopen hall
    cases body_done hb with
    | ignored hs => exact absurd hs hopen
    | accepted _ hl =>
        refine ⟨id, ?_, fun _ => ?_⟩
        all_goals simp only [slots, List.length_append, List.length_singleton]; omega
    | empty hq hop =>
        refine ⟨id, by simp, fun hw => ?_⟩
        obtain ⟨x, rfl⟩ := waitsOn_notFull hw
        exact absurd hop (by simp)
    | taken hq hop =>
        refine ⟨id, ?_, fun hw => ?_⟩
        · simp only [slots, hq, List.length_cons, List.count_singleton_self]
          omega
        · obtain ⟨x, rfl⟩ := waitsOn_notFull hw
          exact absurd hop (by simp)
    | stopped => exact absurd hall (by simp)

/-- A sleeper is one of those counted. -/
theorem asleep_pos {ths : List (Phase (Op α) Cond)} {t : Nat} {op : Op α} {c : Cond}
    (h : ths[t]? = some (.waiting op c)) : 0 < asleep c ths :=
  List.countP_pos_iff.mpr ⟨_, List.mem_of_getElem? h, by simp⟩

/-- A positive count of woken threads has a thread behind it. -/
theorem exists_awake {ths : List (Phase (Op α) Cond)} {c : Cond} (h : 0 < awake c ths) :
    ∃ (t : Nat) (op : Op α) (e : Bool), ths[t]? = some (.woken op c e) := by
  obtain ⟨p, hp, hw⟩ := List.countP_pos_iff.mp h
  obtain ⟨t, ht⟩ := List.getElem?_of_mem hp
  cases p with
  | woken op d e => exact ⟨t, op, e, by rw [ht, ← beq_iff_eq.mp hw]⟩
  | idle | entering _ | waiting _ _ => exact absurd hw (by simp [Phase.wokenFrom])

/-- **No lost wakeup.** While a consumer sleeps, the queue is not stopped and holds at most as many items
    as consumers have been woken and have not re-acquired the mutex; while a producer sleeps, the queue is
    not stopped and has at most as many free slots as producers have been woken and have not re-acquired
    it. Hence a sleeper beside an item, or beside a free slot, has a woken thread on its way to it, and
    nobody sleeps on a stopped queue. -/
theorem no_lost_wakeup (maxSize n : Nat) (as : List (Action (Op α))) (s : Threads α)
    (h : exec (step (program α)) (start maxSize n) as = some s) :
    (∀ (t : Nat) (op : Op α), s.threads[t]? = some (.waiting op .notEmpty) →
      s.shared.stopped = false ∧ s.shared.queue.length ≤ awake .notEmpty s.threads) ∧
    (∀ (t : Nat) (op : Op α), s.threads[t]? = some (.waiting op .notFull) →
      s.shared.stopped = false ∧ maxSize - s.shared.queue.length ≤ awake .notFull s.threads) ∧
    (∀ (t : Nat) (op : Op α), s.threads[t]? = some (.waiting op .notEmpty) → s.shared.queue ≠ [] →
      ∃ (t' : Nat) (op' : Op α) (e : Bool), s.threads[t']? = some (.woken op' .notEmpty e)) ∧
    (∀ (t : Nat) (op : Op α), s.threads[t]? = some (.waiting op .notFull) → s.shared.queue.length < maxSize →
      ∃ (t' : Nat) (op' : Op α) (e : Bool), s.threads[t']? = some (.woken op' .notFull e)) ∧
    (s.shared.stopped = true → ∀ (t : Nat) (op : Op α) (c : Cond), s.threads[t]? ≠ some (.waiting op c)) := by
  have hitems := items_sound.exec_covered as s h
  have hslots := slots_sound.exec_covered as s h
  have hcap := (exec_history h).capacity
  have hC : ∀ (t : Nat) (op : Op α), s.threads[t]? = some (.waiting op .notEmpty) →
      s.shared.stopped = false ∧ s.shared.queue.length ≤ awake .notEmpty s.threads := fun t op ht =>
    ⟨Bool.eq_false_iff.mpr (hitems (asleep_pos ht)).1, (hitems (asleep_pos ht)).2⟩
  have hP : ∀ (t : Nat) (op : Op α), s.threads[t]? = some (.waiting op .notFull) →
      s.shared.stopped = false ∧ maxSize - s.shared.queue.length ≤ awake .notFull s.threads :=
    fun t op ht =>
      ⟨Bool.eq_false_iff.mpr (hslots (asleep_pos ht)).1, hcap ▸ (hslots (asleep_pos ht)).2⟩
  refine ⟨hC, hP, fun t op ht hq => ?_, fun t op ht hl => ?_, fun hs t op c ht => ?_⟩
  · have hlen := List.length_pos_iff.mpr hq
    exact exists_awake (Nat.lt_of_lt_of_le hlen (hC t op ht).2)
  · exact exists_awake (Nat.lt_of_lt_of_le (Nat.sub_pos_of_lt hl) (hP t op ht).2)
  · cases c with
    | notEmpty => exact absurd hs (by simp [(hC t op ht).1])
    | notFull => exact absurd hs (by simp [(hP t op ht).1])

/-- The law at the moment between the notification and the consumer's return to the mutex: one item, one
    woken consumer, and a second consumer still asleep. -/
theorem no_lost_wakeup_two_sleepers :
    let s : Threads Nat :=
      { shared := { queue := [7], maxSize := 4, stopped := false }
        threads := [.woken .pop .notEmpty false, .waiting .popFor .notEmpty, .idle]
        log := [(.push 7, .pushed true)] }
    exec (step (program Nat)) (start 4 3)
        [.call 0 .pop, .run 0 [], .call 1 .popFor, .run 1 [], .call 2 (.push 7), .run 2 [some 0]] =
          some s ∧
      s.shared.queue.length ≤ awake .notEmpty s.threads := by
  intro s
  have hrun : exec (step (program Nat)) (start 4 3)
      [.call 0 .pop, .run 0 [], .call 1 .popFor, .run 1 [], .call 2 (.push 7), .run 2 [some 0]] =
        some s := rfl
  exact ⟨hrun, ((no_lost_wakeup 4 3 _ s hrun).1 1 .popFor rfl).2⟩

end BlockingQueue

end WebrtcStreamer
