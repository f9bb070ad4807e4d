import WebrtcStreamer.Lib.JsonText
import WebrtcStreamer.Streamer.Invariant

/-!
# `Streamer.Deadlock` — the signaling loop, the collector and the queue between them

The collector holds the shared lock of the registry while it pushes a client's message; the loop is the
only thread that makes room in that queue, and it takes the exclusive lock for every request and every
disconnect. `CircularWait` is the state in which each waits for the other.

`circularWait_stuck` says that neither of the two can move in it, `no_circular_wait_iff` which two steps
lead there: a WebSocket message that takes the last slot, and the collector taking a client's message while
there is none. `burst_deadlocks` is a run with the first.
-/

namespace WebrtcStreamer

namespace Streamer

open Transition

variable {ι : Type} {C : Codec}

/-- The collector holds the shared lock and has a message to push. -/
def Collector.pushes : Collector ι → Bool
  | .holding _ _ => true
  | _ => false

/-- **A circular wait**: the loop waits for the registry's lock, and the collector, which holds it, waits
    for room in the signaling queue. -/
def CircularWait (s : State ι) : Prop :=
  s.loop.wantsExclusive = true ∧ s.collector.pushes = true ∧ s.signalingQueue.Full

/-- Neither of the two can move in it. -/
theorem circularWait_stuck {s : State ι} (h : CircularWait s) :
    (∀ a, step C s (.loop a) = none) ∧ ∀ a, step C s (.collector a) = none := by
  obtain ⟨hw, hp, hfull⟩ := h
  have hheld : s.sharedHeld = true := by
    cases hpc : s.collector with
    | holding item rest => rw [State.sharedHeld, hpc]; rfl
    | top | locking | walking _ | done => rw [hpc] at hp; exact absurd hp (by simp [Collector.pushes])
  constructor
  · intro a
    refine Option.eq_none_iff_forall_ne_some.mpr fun s' hst => ?_
    cases (step_cases hst).2 with
    | loop h =>
        cases h with
        | emplaced _ hfree _ | discarded _ hfree _ _ | absent _ hfree _ | erased _ hfree _ _ =>
            exact absurd (hheld.symm.trans hfree) (by simp)
        | checked hpc | stopped hpc | popped hpc _ _ | threw hpc _ _ | destroyed hpc _ _ | answered hpc _ _
        | sent hpc | sendThrew hpc | joined hpc _ =>
            rw [hpc] at hw
            exact absurd hw (by simp [Loop.wantsExclusive])
  · intro a
    refine Option.eq_none_iff_forall_ne_some.mpr fun s' hst => ?_
    cases (step_cases hst).2 with
    | collector h =>
        cases h with
        | pushed _ hq => exact absurd hq (by rw [BlockingQueue.tryPush_eq_none.mpr hfull]; simp)
        | checked hpc | locked hpc _ _ | got hpc _ _ | passed hpc _ _ | unlocked hpc =>
            rw [hpc] at hp
            exact absurd hp (by simp [Collector.pushes])

/-- While the loop waits for the lock: no WebSocket message takes the last slot if the collector has a
    message to push, and the collector takes no client's message if there is no slot. -/
def KeepsRoom (s : State ι) : Action ι → Prop
  | .onMessage .push =>
      s.loop.wantsExclusive = true → s.collector.pushes = true →
        s.signalingQueue.stopped = true ∨ s.signalingQueue.queue.length + 1 < s.signalingQueue.maxSize
  | .collector (.get _) =>
      s.loop.wantsExclusive = true → s.signalingQueue.Full →
        ∀ e rest, s.collector = .walking (e :: rest) →
          ∀ client, s.clients[e.2]? = some client → client.signalingQueueOut.queue = []
  | _ => True

/-! ## The queue stays within its bound -/

def Bounded (s : State ι) : Prop := s.signalingQueue.queue.length ≤ s.signalingQueue.maxSize

theorem bounded_push {q q' : BlockingQueue (Item ι)} {item : Item ι} (hb : q.queue.length ≤ q.maxSize)
    (hq : q.tryPush item = some q') : q'.queue.length ≤ q'.maxSize := by
  rcases BlockingQueue.tryPush_cases hq with ⟨-, rfl⟩ | ⟨-, hlt, rfl⟩
  · exact hb
  · show (q.queue ++ [item]).length ≤ q.maxSize
    rw [List.length_append, List.length_singleton]
    omega

/-- After the loop has popped a message, there is room. -/
theorem room_after_pop {q q' : BlockingQueue (Item ι)} {item : Item ι} (hb : q.queue.length ≤ q.maxSize)
    (hq : q.tryPop = some (some item, q')) : q'.queue.length < q'.maxSize := by
  obtain ⟨rest, hqueue, rfl⟩ := BlockingQueue.tryPop_some hq
  rw [hqueue, List.length_cons] at hb
  show rest.length < q.maxSize
  omega

theorem dispatch_signalingQueue (s : State ι) (source : Source ι) (v : Verdict) :
    (dispatch s source v).signalingQueue = s.signalingQueue := by
  cases v <;> rfl

theorem bounded_step {s s' : State ι} {a : Action ι} (hb : Bounded s) (h : step C s a = some s') :
    Bounded s' := by
  cases (step_cases h).2 with
  | onMessage h =>
      cases h with
      | dropped _ _ | received _ _ => exact hb
      | pushed _ hq => exact bounded_push hb hq
  | collector h =>
      cases h with
      | pushed _ hq => exact bounded_push hb hq
      | checked _ | locked _ _ _ | got _ _ _ | passed _ _ _ | unlocked _ => exact hb
  | loop h =>
      cases h with
      | popped _ hq _ =>
          unfold Bounded
          rw [dispatch_signalingQueue]
          exact Nat.le_of_lt (room_after_pop hb hq)
      | threw _ hq _ => exact Nat.le_of_lt (room_after_pop hb hq)
      | checked _ | stopped _ | emplaced _ _ _ | discarded _ _ _ _ | absent _ _ _ | erased _ _ _ _
      | destroyed _ _ _ | answered _ _ _ | sent _ | sendThrew _ | joined _ _ => exact hb
  | multimedia h =>
      obtain ⟨m, q, f, rfl⟩ := stepMultimedia_frame h
      exact hb
  | pushData h =>
      obtain ⟨cs, p, q, rfl⟩ := stepPushData_frame h
      exact hb
  | client _ _ => exact hb
  | destructor h => cases h <;> exact hb

/-! ## The two steps into a circular wait -/

/-- A step that keeps room does not close the circle. -/
theorem no_circle_of_keepsRoom {s s' : State ι} {a : Action ι} (hb : Bounded s) (hc : ¬ CircularWait s)
    (hk : KeepsRoom s a) (h : step C s a = some s') : ¬ CircularWait s' := by
  rintro ⟨hw, hp, hf⟩
  cases (step_cases h).2 with
  | onMessage h =>
      cases h with
      | dropped _ _ | received _ _ => exact hc ⟨hw, hp, hf⟩
      | pushed hpc hq =>
          rcases BlockingQueue.tryPush_cases hq with ⟨-, rfl⟩ | ⟨hrun, -, rfl⟩
          · exact hc ⟨hw, hp, hf⟩
          · -- the push filled the queue
            have hfull : s.signalingQueue.maxSize ≤ (s.signalingQueue.queue ++ [_]).length := hf.1
            rw [List.length_append, List.length_singleton] at hfull
            rcases hk hw hp with hstop | hroom
            · rw [hrun] at hstop
              exact absurd hstop (by simp)
            · omega
  | collector h =>
      cases h with
      | checked _ =>
          change (if s.doTerm then Collector.done else .locking).pushes = true at hp
          split at hp <;> exact absurd hp (by simp [Collector.pushes])
      | locked _ _ _ | passed _ _ _ | pushed _ _ | unlocked _ => exact absurd hp (by simp [Collector.pushes])
      | @got _ e rest client text q hpc hcl hq =>
          -- the collector took a message while the queue was full
          obtain ⟨text', rest', hqueue, -, -⟩ := (BlockingQueue.tryPopFor_cases hq).resolve_left (by simp)
          rw [hk hw hf e rest hpc client hcl] at hqueue
          exact absurd hqueue (by simp)
  | loop h =>
      cases h with
      | checked _ =>
          change (if s.doTerm then Loop.joining else .polling).wantsExclusive = true at hw
          split at hw <;> exact absurd hw (by simp [Loop.wantsExclusive])
      | popped _ hq _ =>
          have hroom := room_after_pop hb hq
          have hfull := hf.1
          rw [dispatch_signalingQueue] at hfull
          exact absurd hroom (Nat.not_lt.mpr hfull)
      | threw _ hq _ => exact absurd (room_after_pop hb hq) (Nat.not_lt.mpr hf.1)
      | stopped _ | emplaced _ _ _ | discarded _ _ _ _ | absent _ _ _ | erased _ _ _ _ | answered _ _ _
      | sent _ | joined _ _ => exact absurd hw (by simp [Loop.wantsExclusive])
      | @destroyed c client client' _ _ _ =>
          change (if client'.lifetime = .destroyed then Loop.top else .destroying c).wantsExclusive = true at hw
          split at hw <;> exact absurd hw (by simp [Loop.wantsExclusive])
      | sendThrew _ => exact hc ⟨hw, hp, hf⟩
  | multimedia h =>
      obtain ⟨m, q, f, rfl⟩ := stepMultimedia_frame h
      exact hc ⟨hw, hp, hf⟩
  | pushData h =>
      obtain ⟨cs, p, q, rfl⟩ := stepPushData_frame h
      exact hc ⟨hw, hp, hf⟩
  | client _ _ => exact hc ⟨hw, hp, hf⟩
  | destructor h =>
      cases h with
      | signalingStopped _ => exact absurd hf.2 (by simp [BlockingQueue.stop])
      | started _ | webSocketClosed _ | signalingJoined _ _ | framesStopped _ | multimediaJoined _ _
      | finished _ | released _ _ _ | destroyed _ _ _ => exact hc ⟨hw, hp, hf⟩

/-- A step that does not keep room closes the circle. -/
theorem keepsRoom_of_no_circle {s s' : State ι} {a : Action ι} (hc : ¬ CircularWait s')
    (h : step C s a = some s') : KeepsRoom s a := by
  cases (step_cases h).2 with
  | onMessage h =>
      cases h with
      | dropped _ _ | received _ _ => trivial
      | pushed hpc hq =>
          intro hw hp
          rcases BlockingQueue.tryPush_cases hq with ⟨hstop, -⟩ | ⟨hrun, -, rfl⟩
          · exact .inl hstop
          · by_contra hno
            refine hc ⟨hw, hp, ?_, hrun⟩
            show s.signalingQueue.maxSize ≤ (s.signalingQueue.queue ++ [_]).length
            rw [List.length_append, List.length_singleton]
            omega
  | collector h =>
      cases h with
      | checked _ | locked _ _ _ | pushed _ _ | unlocked _ => trivial
      | @got expired e rest client text q hpc hcl hq =>
          intro hw hf
          exact absurd ⟨hw, rfl, hf⟩ hc
      | @passed expired e rest client q hpc hcl hq =>
          intro _ _ e' rest' hpc' client' hcl'
          obtain ⟨rfl, -⟩ := List.cons.inj (Collector.walking.inj (hpc.symm.trans hpc'))
          obtain rfl := Option.some.inj (hcl.symm.trans hcl')
          rcases BlockingQueue.tryPopFor_cases hq with ⟨hempty, -⟩ | ⟨_, _, -, hr, -⟩
          · exact hempty
          · exact absurd hr (by simp)
  | loop _ | multimedia _ | pushData _ | client _ _ | destructor _ => trivial

/-! ## Every run -/

/-- **No circular wait, exactly.** No step of a run leads into a circular wait if and only if every step
    that is taken keeps room. -/
theorem no_circular_wait_iff (as : List (Action ι)) :
    Always (step C) (fun s a => ∀ s', step C s a = some s' → ¬ CircularWait s') (init ι) as ↔
      Always (step C) (fun s a => (step C s a).isSome → KeepsRoom s a) (init ι) as := by
  have hinit : Bounded (init ι) ∧ ¬ CircularWait (init ι) :=
    ⟨Nat.zero_le _, fun h => absurd h.1 (by simp [init, Loop.wantsExclusive])⟩
  have hkeeps : ∀ (s : State ι) (a : Action ι) (s' : State ι), ((step C s a).isSome → KeepsRoom s a) →
      Bounded s ∧ ¬ CircularWait s → step C s a = some s' → ¬ CircularWait s' := by
    rintro s a s' hk ⟨hb, hc⟩ hst
    exact no_circle_of_keepsRoom hb hc (hk (by rw [hst]; rfl)) hst
  constructor
  · refine always_imp (I := fun s => Bounded s ∧ ¬ CircularWait s) ?_ ?_ as (init ι) hinit
    · rintro s a s' hc ⟨hb, -⟩ hst
      exact ⟨bounded_step hb hst, hc s' hst⟩
    · rintro s a hc - hen
      obtain ⟨s', hst⟩ := Option.isSome_iff_exists.mp hen
      exact keepsRoom_of_no_circle (hc s' hst) hst
  · refine always_imp (I := fun s => Bounded s ∧ ¬ CircularWait s) ?_ ?_ as (init ι) hinit
    · rintro s a s' hk hi hst
      exact ⟨bounded_step hi.1 hst, hkeeps s a s' hk hi hst⟩
    · intro s a hk hi s' hst
      exact hkeeps s a s' hk hi hst

/-! ## A burst of messages -/

/-- `n` times the same message. -/
def burst (tag : ι) (data : Data) : Nat → List (Action ι)
  | 0 => []
  | n + 1 => .onMessage (.receive tag data) :: .onMessage .push :: burst tag data n

/-- What a burst does to the queue, as long as there is room for it. -/
theorem exec_burst (tag : ι) {data : Data} {text : Bytes} (hin : Inbound C data text) (n : Nat) :
    ∀ s : State ι, s.fault = none → s.onMessage = .idle → s.signalingQueue.stopped = false →
      s.signalingQueue.queue.length + n ≤ s.signalingQueue.maxSize →
      exec (step C) s (burst tag data n) =
        some { s with
          signalingQueue := { s.signalingQueue with
            queue := s.signalingQueue.queue ++
              List.replicate n { text := text, source := .inbound tag data } } } := by
  induction n with
  | zero =>
      intro s _ _ _ _
      rw [List.replicate_zero, List.append_nil]
      rfl
  | succ n ih =>
      intro s hf hidle hrun hlen
      have hreceive : step C s (.onMessage (.receive tag data)) =
          some { s with onMessage := .pushing { text := text, source := .inbound tag data } } := by
        have hm : onMessage C data = .ok (some text) := hin
        rw [step_onMessage hf]
        simp only [stepOnMessage, hidle, hm]
      have hpush : s.signalingQueue.tryPush { text := text, source := .inbound tag data } =
          some { s.signalingQueue with
            queue := s.signalingQueue.queue ++ [{ text := text, source := .inbound tag data }] } := by
        have hlt : s.signalingQueue.queue.length < s.signalingQueue.maxSize := by omega
        simp [BlockingQueue.tryPush, BlockingQueue.push, hrun, hlt]
      have hpushed : step C { s with onMessage := .pushing { text := text, source := .inbound tag data } }
          (.onMessage .push) =
            some { s with
              signalingQueue := { s.signalingQueue with
                queue := s.signalingQueue.queue ++ [{ text := text, source := .inbound tag data }] }
              onMessage := .idle } := by
        rw [step_onMessage (by exact hf)]
        simp only [stepOnMessage, hpush, Option.bind_eq_bind, Option.bind_some]
      rw [burst, exec_cons, hreceive, Option.bind_some, exec_cons, hpushed, Option.bind_some, ih]
      · rw [List.replicate_succ, List.append_assoc, List.singleton_append, ← hidle]
      · exact hf
      · rfl
      · exact hrun
      · show (s.signalingQueue.queue ++ [_]).length + n ≤ s.signalingQueue.maxSize
        rw [List.length_append, List.length_singleton]
        omega

/-- `b` is registered and has just lost its connection, the collector holds its disconnect, and the loop
    is about to register `c`. -/
def handoverRun : List (Action Unit) :=
  [.onMessage (.receive () (.text (str "\x7b\"id\":\"b\",\"type\":\"request\"\x7d"))), .onMessage .push,
    .loop .check, .loop .pop, .loop .emplace,
    .client 0 (.stateChange .disconnected), .client 0 (.push 0),
    .onMessage (.receive () (.text (str "\x7b\"id\":\"c\",\"type\":\"request\"\x7d"))), .onMessage .push,
    .collector .check, .collector (.lock [⟨str "b", 0⟩]), .collector (.get true),
    .loop .check, .loop .pop]

/-- Then 256 messages arrive. -/
theorem burst_deadlocks :
    ∃ s ∈ exec (step JsonText.text) (init Unit) (handoverRun ++ burst () (.text (str "\x7b\x7d")) 256),
      CircularWait s := by
  have hrun : ∃ s ∈ exec (step JsonText.text) (init Unit) handoverRun,
      s.fault = none ∧ s.onMessage = .idle ∧ s.signalingQueue = .new 256 ∧
        s.loop.wantsExclusive = true ∧ s.collector.pushes = true := by
    decide +kernel
  obtain ⟨s, hs, hf, hidle, hqueue, hw, hp⟩ := hrun
  have hin : Inbound JsonText.text (.text (str "\x7b\x7d")) (str "\x7b\"io_mode\":\"input\"\x7d") := by rfl
  have hburst := exec_burst () hin 256 s hf hidle (by rw [hqueue]; rfl) (by rw [hqueue]; decide)
  refine ⟨_, exec_append_some.mpr ⟨s, hs, hburst⟩, hw, hp, ?_, by rw [hqueue]; rfl⟩
  rw [hqueue]
  show 256 ≤ ([] ++ List.replicate 256 _).length
  rw [List.nil_append, List.length_replicate]

end Streamer

end WebrtcStreamer
