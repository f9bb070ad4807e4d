import Mathlib.Data.List.Basic
import Mathlib.Logic.Relation
import WebrtcStreamer.Teardown.Progress

/-!
# `Teardown.Simulation` — the client that `Streamer` sees

`Streamer` has a client's callbacks as a list of messages: invoked at any moment, pushed later and in any
order, until the body of `~Client` is over. Here they come from two threads that the library runs. Up to the
end of the body every step is one of `Streamer`'s or changes nothing that it sees (`exec_simulates`), so
what `Streamer` says of a client holds of this one.

The messages under way are what the two threads push with their next step. They are the list of `Streamer`
up to order: which thread was first is not kept here.
-/

namespace WebrtcStreamer

namespace Teardown

open Streamer (Client ClientAction PeerState GatheringState DescriptionType stateChangeMessage
  gatheringMessage)
open Transition

variable {C : Codec}

/-- What happens to a client in a step of `Streamer`. -/
inductive ClientMove (C : Codec) (k : Client) : Client → Prop
  | own {a k'} : Streamer.stepClient C k a = some (k', none) → ClientMove C k k'
  | destroyed {k'} : k.destroy = some k' → ClientMove C k k'
  | released : k.lifetime = .live → ClientMove C k { k with lifetime := .setTerm }
  | answered {sdp q} : k.lifetime = .live → k.signalingQueueIn.tryPush sdp = some q →
      ClientMove C k { k with signalingQueueIn := q }
  | collected {expired r q} : k.lifetime = .live → k.signalingQueueOut.tryPopFor expired = some (r, q) →
      ClientMove C k { k with signalingQueueOut := q }

/-- `Streamer` sees the client `c` with these messages under way as `k`. -/
def Views (c : Client) (underway : List Bytes) (k : Client) : Prop :=
  ∃ callbacks, k = { c with callbacks := callbacks } ∧ callbacks.Perm underway

/-- `k` gets by steps of `Streamer` to where the client is seen as `c'`. -/
def Leads (C : Codec) (k c' : Client) (underway : List Bytes) : Prop :=
  ∃ k', Relation.ReflTransGen (ClientMove C) k k' ∧ Views c' underway k'

/-! ## One client -/

theorem Views.stays {c k : Client} {msgs : List Bytes} (h : Views c msgs k) : Leads C k c msgs :=
  ⟨k, .refl, h⟩

theorem Views.perm {c k : Client} {msgs msgs' : List Bytes} (h : Views c msgs k) (hperm : msgs.Perm msgs') :
    Views c msgs' k := by
  obtain ⟨callbacks, hk, hcb⟩ := h
  exact ⟨callbacks, hk, hcb.trans hperm⟩

theorem Leads.perm {c k : Client} {msgs msgs' : List Bytes} (h : Leads C k c msgs) (hperm : msgs.Perm msgs') :
    Leads C k c msgs' := by
  obtain ⟨k', hmoves, hv⟩ := h
  exact ⟨k', hmoves, hv.perm hperm⟩

/-- The library invokes the state-change callback. -/
theorem Views.stateChange {c k : Client} {msgs msgs' : List Bytes} (state : PeerState) (h : Views c msgs k)
    (hlife : c.lifetime ≠ .destroyed)
    (hperm : ((stateChangeMessage C c.id state).toList ++ msgs).Perm msgs') : Leads C k c msgs' := by
  obtain ⟨callbacks, rfl, hcb⟩ := h
  refine ⟨_, .single (.own (a := .stateChange state) (if_neg hlife)), _, rfl, ?_⟩
  exact (List.perm_append_comm.trans (hcb.append_left _)).trans hperm

/-- The library invokes the gathering-state callback. -/
theorem Views.gathering {c k : Client} {msgs msgs' : List Bytes} (state : GatheringState)
    (type : DescriptionType) (sdp : Bytes) (h : Views c msgs k) (hlife : c.lifetime ≠ .destroyed)
    (hperm : ((gatheringMessage C c.id type sdp state).toList ++ msgs).Perm msgs') : Leads C k c msgs' := by
  obtain ⟨callbacks, rfl, hcb⟩ := h
  refine ⟨_, .single (.own (a := .gatheringStateChange state type sdp) (if_neg hlife)), _, rfl, ?_⟩
  exact (List.perm_append_comm.trans (hcb.append_left _)).trans hperm

/-- A callback pushes. -/
theorem Views.push {c k : Client} {text : Bytes} {msgs msgs' : List Bytes} {q : BlockingQueue Bytes}
    (h : Views c msgs' k) (hlife : c.lifetime ≠ .destroyed) (hq : c.signalingQueueOut.tryPush text = some q)
    (hperm : msgs'.Perm (text :: msgs)) : Leads C k { c with signalingQueueOut := q } msgs := by
  obtain ⟨callbacks, rfl, hcb⟩ := h
  have hcb := hcb.trans hperm
  have hmem : text ∈ callbacks := hcb.mem_iff.mpr List.mem_cons_self
  have hstep : Streamer.stepClient C { c with callbacks := callbacks } (.push (callbacks.idxOf text)) =
      some ({ c with signalingQueueOut := q, callbacks := callbacks.erase text }, none) := by
    rw [List.erase_eq_eraseIdx_of_idxOf rfl]
    simp [Streamer.stepClient, hlife, List.getElem?_idxOf hmem, hq]
  have hrest : (callbacks.erase text).Perm msgs := by
    have herase := hcb.erase text
    rwa [List.erase_cons_head] at herase
  exact ⟨_, .single (.own hstep), _, rfl, hrest⟩

/-- `~Client` and the client's own thread do not look at the callbacks. -/
theorem Views.destroy {c c' k : Client} {msgs : List Bytes} (h : Views c msgs k) (hd : c.destroy = some c') :
    Leads C k c' msgs := by
  obtain ⟨callbacks, rfl, hcb⟩ := h
  have hstep : ({ c with callbacks := callbacks } : Client).destroy =
      some { c' with callbacks := callbacks } := by
    cases Streamer.destroy_stepped hd with
    | termSet hl | inStopped hl | outStopped hl | closed hl => simp [Client.destroy, hl]
    | joined hl hdone => simp [Client.destroy, hl, hdone]
  exact ⟨_, .single (.destroyed hstep), callbacks, rfl, hcb⟩

theorem Views.thread {c c' k : Client} {a : ClientAction} {msgs : List Bytes} (h : Views c msgs k)
    (ha : ofThread a = true) (hst : Streamer.stepClient C c a = some (c', none)) : Leads C k c' msgs := by
  obtain ⟨callbacks, rfl, hcb⟩ := h
  have hstep : Streamer.stepClient C { c with callbacks := callbacks } a =
      some ({ c' with callbacks := callbacks }, none) := by
    cases Streamer.stepClient_cases hst with
    | checked hpc | applied hpc => simp [Streamer.stepClient, hpc]
    | stopped hpc hq | popped hpc hq => simp [Streamer.stepClient, hpc, hq]
    | stateChanged _ | gatheringStateChanged _ | pushed _ _ _ => exact absurd ha (by simp [ofThread])
  exact ⟨_, .single (.own hstep), callbacks, rfl, hcb⟩

/-! ## The messages under way -/

variable (C) in
/-- What the two threads push next. -/
def underway (s : State) : List Bytes :=
  (reportMessage C s.client.id s.destroyer.call).toList ++ (taskMessage C s.client.id s.processor).toList

/-- One step of a call of `close` or `remoteClose`; `others` is what the other thread has under way. -/
theorem Views.closing {own : Bool} {s s' : State} {c c' : Closing} {k : Client} {others : List Bytes}
    (h : Views s.client ((reportMessage C s.client.id (some c)).toList ++ others) k)
    (hlife : s.client.lifetime ≠ .destroyed) (hst : ClosingStepped C own s c s' c') :
    Leads C k s'.client ((reportMessage C s'.client.id (some c')).toList ++ others) := by
  cases hst with
  | @again remote _ =>
      refine h.stays.perm ?_
      cases remote <;> exact .refl _
  | entered _ | shutDown _ | passed _ | lost _ | changed _ | reset _ => exact h.stays
  | stolen _ =>
      by_cases hcallback : s.peerConnection.stateChangeCallback = true
      · rw [if_pos hcallback]
        exact h.stateChange .closed hlife (.refl _)
      · rw [if_neg hcallback]
        exact h.stays
  | reported htext hq =>
      refine h.push hlife hq ?_
      rw [reportMessage, if_pos rfl, htext]
      exact .refl _
  | threw hnone =>
      refine h.stays.perm ?_
      rw [reportMessage, if_pos rfl, hnone]
      exact .refl _

/-- One step of the processor; `others` is what the thread in `~Client` has under way. -/
theorem Views.processorStep {s s' : State} {k : Client} {others : List Bytes}
    (h : Views s.client (others ++ (taskMessage C s.client.id s.processor).toList) k)
    (hlife : s.client.lifetime ≠ .destroyed) (hst : ProcessorStepped C s s') :
    Leads C k s'.client (others ++ (taskMessage C s'.client.id s'.processor).toList) := by
  have hadd : ∀ o : Option Bytes, (o.toList ++ (others ++ [])).Perm (others ++ o.toList) := by
    intro o
    rw [List.append_nil]
    exact List.perm_append_comm
  have htake : ∀ text, (others ++ [text]).Perm (text :: (others ++ [])) := by
    intro text
    rw [List.append_nil]
    exact List.perm_append_singleton text others
  cases hst with
  | @started task rest hp _ =>
      rw [hp] at h
      cases task with
      | remoteClose => exact h.stays
      | gatheringStateChange state =>
          simp only [PeerConnection.start]
          split <;> exact h.stays
      | stateChange state =>
          simp only [PeerConnection.start]
          split
          -- The callback is there: `Streamer` has its message under way from now on.
          · exact h.stateChange state hlife (hadd _)
          · exact h.stays
  | stateChangePushed hp htext hq =>
      rw [hp, taskMessage, htext] at h
      exact h.push hlife hq (htake _)
  | stateChangeEnded hp hnone =>
      rw [hp, taskMessage, hnone] at h
      exact h.stays
  | gatheringEnded hp _ | threw hp _ _ | dropped hp _ | last hp _ =>
      rw [hp] at h
      exact h.stays
  -- The message of the gathering-state callback is made once it has the connection.
  | @locked message hp _ hm =>
      rw [hp] at h
      refine h.gathering .complete s.peerConnection.localDescription.1 s.peerConnection.localDescription.2
        hlife ?_
      rw [hm]
      exact hadd (some message)
  | gatheringPushed hp hq =>
      rw [hp] at h
      exact h.push hlife hq (htake _)
  | destroyed hp hover | closed hp hover =>
      rw [hp, taskMessage_call rfl, reportMessage_of_over hover] at h
      exact h.stays
  | destroying hp hc | closing hp hc =>
      rw [hp, taskMessage_call rfl] at h
      rw [taskMessage_call rfl]
      exact ((h.perm List.perm_append_comm).closing hlife hc).perm List.perm_append_comm

/-! ## The simulation -/

/-- **A step up to the end of the body** is one of `Streamer`'s, or nothing that it sees. -/
theorem step_simulates {s s' : State} {a : Action} {k : Client} (h : Views s.client (underway C s) k)
    (ho : s.Orderly) (hbody : s.destroyer.pastBody = false) (hst : step C s a = some s') :
    Leads C k s'.client (underway C s') := by
  have hlife : s.client.lifetime ≠ .destroyed := fun hl =>
    absurd (hbody.symm.trans (ho.pastBody.mpr hl)) (by simp)
  have hid := id_step hst
  unfold underway at h ⊢
  cases step_cases hst with
  | destroyer hst =>
      cases hst with
      | body hd _ _ hk | joined hd _ hk | closed hd hk =>
          rw [hd] at h
          rw [hid]
          exact h.destroy hk
      | close hd _ =>
          rw [hd] at h
          exact h.stays
      | closing hd hc =>
          rw [hd] at h
          have hlead := h.closing hlife hc
          rw [hc.frame.1]
          rw [show _ = s.client.id from hid] at hlead ⊢
          exact hlead
      -- Behind the body, `Streamer` sees nothing of the client any more.
      | member hd _ | dropped hd _ | last hd _ | released hd _ | releasing hd _ =>
          rw [hd] at hbody
          exact absurd hbody (by simp [Destroyer.pastBody])
  | processor hst =>
      have hlead := h.processorStep hlife hst
      rw [hst.frame.1]
      rw [hid] at hlead ⊢
      exact hlead
  | event _ => exact h.stays
  | thread ha hk =>
      rw [hid]
      exact h.thread ha hk
  | signalingSet hl hq =>
      obtain ⟨callbacks, rfl, hcb⟩ := h
      exact ⟨_, .single (.answered hl hq), callbacks, rfl, hcb⟩
  | signalingGet hl hq =>
      obtain ⟨callbacks, rfl, hcb⟩ := h
      exact ⟨_, .single (.collected hl hq), callbacks, rfl, hcb⟩
  | release hl =>
      obtain ⟨callbacks, rfl, hcb⟩ := h
      exact ⟨_, .single (.released hl), callbacks, rfl, hcb⟩

/-- Nobody gets back into the body. -/
theorem pastBody_step {s s' : State} {a : Action} (hst : step C s a = some s')
    (h : s'.destroyer.pastBody = false) : s.destroyer.pastBody = false := by
  by_cases ha : a = .destroyer
  · subst ha
    cases step_cases hst with
    | destroyer hst =>
        cases hst with
        | body hd _ _ _ | close hd _ | joined hd _ _ | closed hd _ | closing hd _ => rw [hd]; rfl
        | member _ _ | dropped _ _ | last _ _ | released _ _ | releasing _ _ =>
            exact absurd h (by simp [Destroyer.pastBody])
  · rw [← destroyer_eq hst ha]
    exact h

/-- **`Streamer` sees the whole life of the client**, up to the end of the body of `~Client`. -/
theorem exec_simulates (id : Bytes) (localDescription : DescriptionType × Bytes) (t : List Action) (s : State)
    (h : exec (step C) (init id localDescription) t = some s) :
    s.Orderly ∧ (s.destroyer.pastBody = false → Leads C (.new id) s.client (underway C s)) := by
  refine exec_induction
    (motive := fun _ s => s.Orderly ∧
      (s.destroyer.pastBody = false → Leads C (.new id) s.client (underway C s)))
    ⟨orderly_init id localDescription, fun _ => ⟨.new id, .refl, [], rfl, .refl _⟩⟩ ?_ t s h
  rintro as s a s' - ⟨ho, hlead⟩ hst
  refine ⟨orderly_step ho hst, fun hbody => ?_⟩
  have hbefore := pastBody_step hst hbody
  obtain ⟨k, hmoves, hv⟩ := hlead hbefore
  obtain ⟨k', hmoves', hv'⟩ := step_simulates hv ho hbefore hst
  exact ⟨k', hmoves.trans hmoves', hv'⟩

/-- A peer connects and gathering is complete: the callback is about to push the offer. -/
def offering : List Action :=
  [.event (.stateChange .connecting), .processor, .processor, .event (.gatheringStateChange .complete), .processor,
    .processor]

theorem exec_simulates_offering :
    ∃ s message, exec (step JsonText.text) (init (str "c") (.offer, [])) offering = some s ∧
      underway JsonText.text s = [message] ∧ Leads JsonText.text (.new (str "c")) s.client [message] := by
  have hrun : ((exec (step JsonText.text) (init (str "c") (.offer, [])) offering).any fun s =>
      !s.destroyer.pastBody && (underway JsonText.text s).length == 1) = true := by
    decide +kernel
  obtain ⟨s, hs, hall⟩ := (Option.any_eq_true _ _).mp hrun
  obtain ⟨hbody, hlength⟩ := Bool.and_eq_true_iff.mp hall
  obtain ⟨message, hmessage⟩ := List.length_eq_one_iff.mp (eq_of_beq hlength)
  have hleads := (exec_simulates (str "c") (.offer, []) _ s hs).2 (by simpa using hbody)
  rw [hmessage] at hleads
  exact ⟨s, message, hs, hmessage, hleads⟩

end Teardown

end WebrtcStreamer
