import WebrtcStreamer.Streamer.Robustness
import WebrtcStreamer.Streamer.TrustBoundary

/-!
# `Streamer.Outgoing` — what the loop sends on the WebSocket

A message for the signaling server is in the loop's hands from the moment it is taken from the queue until
`WebSocket::send` returns. `exec_outgoing` says that nothing else happens to it: if it is lost, `send` has
thrown.
-/

namespace WebrtcStreamer

namespace Streamer

open Transition

variable {ι : Type}

/-! ## Histories -/

/-- A message that the loop takes in order to send it. -/
def toSend (C : Codec) (s : State ι) (a : Action ι) : List (Bytes × Source ι) :=
  (taken s a).filterMap fun item =>
    match process C s.clientsMap item.text with
    | .ok (.send message) => some (message, item.source)
    | _ => none

/-- A message with which `WebSocket::send` returns. -/
def handedOver (s : State ι) : Action ι → List (Bytes × Source ι)
  | .loop (.send false) => sent s (.loop (.send false))
  | _ => []

/-- The message that the loop is to send. -/
def Loop.message : Loop ι → List (Bytes × Source ι)
  | .sending message source => [(message, source)]
  | _ => []

/-- The message that will still be sent: none after `send` has thrown. -/
def State.unsent (s : State ι) : List (Bytes × Source ι) :=
  if s.fault = some .webSocketSend then [] else s.loop.message

variable {C : Codec}

/-! ## Every run -/

/-- Only a `pop` takes anything. -/
theorem toSend_of_ne {s : State ι} {a : Action ι} (ha : a ≠ .loop .pop) : toSend C s a = [] := by
  unfold toSend taken
  split
  · exact absurd rfl ha
  · rfl

theorem outgoing_step {s s' : State ι} {a : Action ι} (h : step C s a = some s') :
    s.loop.message ++ toSend C s a = handedOver s a ++ s'.loop.message := by
  by_cases ha : ∃ b, a = .loop b
  · obtain ⟨b, rfl⟩ := ha
    cases (step_cases h).2 with
    | loop h =>
        cases h with
        | @popped item q verdict hpc hq hv =>
            obtain ⟨rest, hqueue, rfl⟩ := BlockingQueue.tryPop_some hq
            simp only [toSend, taken_front hpc hqueue, hpc, List.filterMap_cons, List.filterMap_nil, hv]
            cases verdict with
            | skip | request _ | answer _ _ | erase _ | send _ => rfl
        | @threw item q e hpc hq hv =>
            obtain ⟨rest, hqueue, rfl⟩ := BlockingQueue.tryPop_some hq
            simp only [toSend, taken_front hpc hqueue, hpc, List.filterMap_cons, List.filterMap_nil, hv]
            rfl
        | stopped hpc hq =>
            obtain ⟨hempty, -, -, -⟩ := (BlockingQueue.tryPop_cases hq).resolve_right (by simp)
            simp only [toSend, taken, hpc, hempty]
            rfl
        | checked hpc =>
            rw [toSend_of_ne (by simp), hpc]
            by_cases hterm : s.doTerm = true
            · simp [hterm, handedOver, Loop.message]
            · simp [hterm, handedOver, Loop.message]
        | @destroyed c client client' hpc _ _ =>
            rw [toSend_of_ne (by simp), hpc]
            by_cases hdestroyed : client'.lifetime = .destroyed
            · simp [hdestroyed, handedOver, Loop.message]
            · simp [hdestroyed, handedOver, Loop.message]
        | sent hpc =>
            rw [toSend_of_ne (by simp), hpc]
            simp only [handedOver, sent, hpc]
            rfl
        | sendThrew hpc =>
            rw [toSend_of_ne (by simp), List.append_nil]
            rfl
        | emplaced hpc _ _ | discarded hpc _ _ _ | absent hpc _ _ | erased hpc _ _ _ | answered hpc _ _
        | joined hpc _ =>
            rw [toSend_of_ne (by simp), hpc]
            rfl
  · have hother : ∀ b, a ≠ .loop b := fun b hb => ha ⟨b, hb⟩
    have hnone : handedOver s a = [] := by
      unfold handedOver
      split
      · exact absurd rfl (hother _)
      · rfl
    rw [loop_kept h hother, toSend_of_ne (hother _), hnone]
    exact List.append_nil _

/-- **What becomes of a message.** The messages taken are those handed over, in order, and the one in the
    loop's hands. -/
theorem exec_outgoing (as : List (Action ι)) (s : State ι) (h : exec (step C) (init ι) as = some s) :
    shown C (toSend C) as = shown C handedOver as ++ s.loop.message := by
  refine exec_induction (motive := fun as s => shown C (toSend C) as = shown C handedOver as ++ s.loop.message)
    rfl ?_ as s h
  intro as s a s' has ih hst
  simp only [shown, trace_snoc has] at ih ⊢
  rw [ih, List.append_assoc, outgoing_step hst, List.append_assoc]

/-- After `send` has thrown, the loop is still where it was. -/
theorem sending_of_fault {as : List (Action ι)} {s : State ι} (h : exec (step C) (init ι) as = some s)
    (hf : s.fault = some .webSocketSend) : s.loop.message ≠ [] := by
  have hall : s.fault = some .webSocketSend → ∃ message source, s.loop = .sending message source := by
    refine exec_induction (motive := fun _ (s : State ι) =>
      s.fault = some .webSocketSend → ∃ message source, s.loop = .sending message source) ?_ ?_ as s h
    · intro hf
      exact absurd hf (by simp [init])
    · intro as s a s' _ _ hst hf'
      cases throws_of_fault hst hf' with
      | webSocketSend =>
          cases (step_cases hst).2 with
          | loop h =>
              cases h with
              | @sendThrew message source hpc => exact ⟨message, source, hpc⟩
  obtain ⟨message, source, hpc⟩ := hall hf
  rw [hpc]
  exact List.cons_ne_nil _ _

/-- A message is lost exactly if `send` has thrown. -/
theorem nothing_lost_iff {as : List (Action ι)} {s : State ι} (h : exec (step C) (init ι) as = some s) :
    shown C (toSend C) as = shown C handedOver as ++ s.unsent ↔ s.fault ≠ some .webSocketSend := by
  rw [exec_outgoing as s h, List.append_cancel_left_eq]
  unfold State.unsent
  constructor
  · intro heq hf
    rw [if_pos hf] at heq
    exact sending_of_fault h hf heq
  · intro hf
    rw [if_neg hf]

end Streamer

end WebrtcStreamer
