import WebrtcStreamer.Lib.JsonText
import WebrtcStreamer.Streamer.Provenance

/-!
# `Streamer.Robustness` — exceptions of the signaling loop

Whatever arrives on the WebSocket is parsed again by the loop and read with typed lookups. `safeParse` and
the `continue`s catch a message that is no JSON or lacks a field; a field of another type than string makes
`get<string>` throw, and nothing between there and the thread's function catches that.

`loop_fault_iff` says that the harmless messages are exactly the ones that do not end the process, in any
run and whatever is registered. The clients' own messages never do, unless the WebSocket throws when one of
them is sent.
-/

namespace WebrtcStreamer

namespace Streamer

open Transition

variable {ι : Type} (C : Codec)

/-- The exception has left the signaling loop. -/
def Fault.fromLoop : Fault → Bool
  | .json _ | .webSocketSend => true
  | .setRemoteDescription | .sendFrame => false

/-- No exception leaves the signaling loop in this step. -/
def Survives (s : State ι) (a : Action ι) : Prop :=
  ∀ s', step C s a = some s' → ∀ f, s'.fault = some f → f.fromLoop = false

/-- If the step takes a message that was received, the message is harmless. -/
def TakesHarmless (s : State ι) (a : Action ι) : Prop :=
  match a with
  | .loop .pop =>
      s.fault = none → s.loop = .polling → ∀ item rest, s.signalingQueue.queue = item :: rest →
        ∀ tag data, item.source = .inbound tag data → Harmless C s.clientsMap data
  | _ => True

/-- If the step sends a client's message, `WebSocket::send` returns. -/
def SendReturns (s : State ι) (a : Action ι) : Prop :=
  match a with
  | .loop (.send threw) =>
      s.fault = none → (∃ message source, s.loop = .sending message source) → threw = false
  | _ => True

variable {C}

/-- A step that leaves the fault alone. -/
theorem fault_kept {s : State ι} {o : Option Fault} (hf : s.fault = none) (ho : o = s.fault) :
    ∀ f, o = some f → f.fromLoop = false := by
  intro f h
  rw [ho, hf] at h
  exact absurd h (by simp)

/-- The other threads' exceptions are not the loop's. -/
theorem others_fault {s s' : State ι} {a : Action ι} (h : step C s a = some s') (ha : ∀ b, a ≠ .loop b) :
    ∀ f, s'.fault = some f → f.fromLoop = false := by
  intro f hf
  cases throws_of_fault h hf with
  | json | webSocketSend => exact absurd rfl (ha _)
  | setRemoteDescription | sendFrame => rfl

/-- The loop takes the front of the queue. -/
theorem tryPop_front {α : Type} {q : BlockingQueue α} {item : α} {rest : List α} (hq : q.queue = item :: rest) :
    q.tryPop = some (some item, { q with queue := rest }) := by
  simp [BlockingQueue.tryPop, BlockingQueue.pop, hq]

/-- **Taking a message** throws exactly if the message is a received one that is not harmless. -/
theorem survives_pop {s : State ι} (ht : Traced C s) :
    Survives C s (.loop .pop) ↔ TakesHarmless C s (.loop .pop) := by
  constructor
  · intro h hf hpc item rest hqueue tag data hsrc
    -- were it not harmless, the step would throw
    rcases ht.queue item (by rw [hqueue]; exact List.mem_cons_self) with
      ⟨tag', data', hsrc', hin⟩ | ⟨c, X, hsrc', -⟩
    · obtain ⟨-, rfl⟩ := Source.inbound.inj (hsrc'.symm.trans hsrc)
      refine (process_inbound_ok hin).mp ?_
      cases hv : process C s.clientsMap item.text with
      | ok v => exact ⟨v, rfl⟩
      | error e =>
          have hstep : step C s (.loop .pop) =
              some { s with
                signalingQueue := { s.signalingQueue with queue := rest }
                fault := some (.json e) } := by
            rw [step_loop hf]
            simp only [stepLoop, hpc, tryPop_front hqueue, Option.bind_eq_bind, Option.bind_some, hv]
          exact absurd (h _ hstep (.json e) rfl) (by simp [Fault.fromLoop])
    · exact absurd (hsrc'.symm.trans hsrc) (by simp)
  · intro h s' hst
    obtain ⟨hf, hstep⟩ := step_cases hst
    cases hstep with
    | loop hl =>
        cases hl with
        | stopped _ => exact fault_kept hf rfl
        | @popped item q verdict hpc hq hv =>
            refine fault_kept hf ?_
            cases verdict <;> rfl
        | @threw item q e hpc hq hv =>
            obtain ⟨rest, hqueue, rfl⟩ := BlockingQueue.tryPop_some hq
            rcases ht.queue item (by rw [hqueue]; exact List.mem_cons_self) with
              ⟨tag, data, hsrc, hin⟩ | ⟨c, X, -, -, hem⟩
            · obtain ⟨v, hok⟩ := (process_inbound_ok hin).mpr (h hf hpc item rest hqueue tag data hsrc)
              exact absurd (hv.symm.trans hok) (by simp)
            · -- the clients' own messages never throw
              rcases process_emitted s.clientsMap hem with hok | hok
              · exact absurd (hv.symm.trans hok) (by simp)
              · exact absurd (hv.symm.trans hok) (by simp)

theorem survives_send {s : State ι} (threw : Bool) :
    Survives C s (.loop (.send threw)) ↔ SendReturns s (.loop (.send threw)) := by
  constructor
  · rintro h hf ⟨message, source, hpc⟩
    by_cases hthrew : threw = true
    · have hstep : step C s (.loop (.send threw)) = some { s with fault := some .webSocketSend } := by
        rw [step_loop hf]
        simp only [stepLoop, hpc, hthrew, if_true]
      exact absurd (h _ hstep .webSocketSend rfl) (by simp [Fault.fromLoop])
    · exact Bool.not_eq_true _ ▸ hthrew
  · intro h s' hst
    obtain ⟨hf, hstep⟩ := step_cases hst
    cases hstep with
    | loop hl =>
        cases hl with
        | sent _ => exact fault_kept hf rfl
        | sendThrew hpc => exact absurd (h hf ⟨_, _, hpc⟩) (by simp)

/-- **One step.** Where every queued text is from its source, an exception leaves the loop exactly if the loop
    takes a received message that is not harmless, or a send throws. -/
theorem survives_iff {s : State ι} (ht : Traced C s) (a : Action ι) :
    Survives C s a ↔ TakesHarmless C s a ∧ SendReturns s a := by
  cases a with
  | loop a =>
      cases a with
      | pop => exact (survives_pop ht).trans ⟨fun h => ⟨h, trivial⟩, And.left⟩
      | send threw => exact (survives_send threw).trans ⟨fun h => ⟨trivial, h⟩, And.right⟩
      | check | emplace | erase | destroy | answer | join =>
          refine ⟨fun _ => ⟨trivial, trivial⟩, fun _ s' hst => ?_⟩
          obtain ⟨hf, hstep⟩ := step_cases hst
          cases hstep with
          | loop hl => cases hl <;> exact fault_kept hf rfl
  | onMessage _ | collector _ | destructor | multimedia _ | pushData _ | client _ _ =>
      exact ⟨fun _ => ⟨trivial, trivial⟩, fun _ s' hst => others_fault hst (by simp)⟩

end Streamer

end WebrtcStreamer
