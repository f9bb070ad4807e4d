import WebrtcStreamer.Streamer.Invariant
import WebrtcStreamer.Teardown.Report

/-!
# `Teardown.Silence` — no push after the report of `Closed`

`pushed` is the message that a step pushes to `_signalingQueueOut` on behalf of a callback, `latePushes` the
ones that come when the destruction of the queue has begun.

Once the report has returned and the thread in `~Client` is not the one that still has to reset the
callbacks, no callback has anything left to push: the state-change callback is gone, and the gathering-state
callback is gone or the processor is about to remove it.
-/

namespace WebrtcStreamer

namespace Teardown

open Streamer (Client ClientAction PeerState DescriptionType stateChangeMessage)
open Transition

variable {C : Codec}

/-! ## Pushes of the callbacks -/

variable (C) in
/-- What a call of `close` or `remoteClose` pushes next, where there is one. -/
def reportMessage (id : Bytes) (c : Option Closing) : Option Bytes :=
  if c = some .report then stateChangeMessage C id .closed else none

variable (C) in
/-- What the processor pushes next. -/
def taskMessage (id : Bytes) : Processor → Option Bytes
  | .stateChange state => stateChangeMessage C id state
  | .gathering (.pushing message) => some message
  | p => reportMessage C id p.call

variable (C) in
/-- The message that the step pushes to `_signalingQueueOut`, if it is the push of a callback. -/
def pushed (s : State) : Action → Option Bytes
  | .destroyer => reportMessage C s.client.id s.destroyer.call
  | .processor => taskMessage C s.client.id s.processor
  | _ => none

variable (C) in
/-- The pushes after the destruction of `_signalingQueueOut` has begun. -/
def latePushes (s : State) (a : Action) : List Bytes :=
  if s.destroyer.gone .signalingQueueOut then (pushed C s a).toList else []

theorem reportMessage_of_ne {id : Bytes} {c : Option Closing} (h : c ≠ some .report) :
    reportMessage C id c = none := if_neg h

theorem reportMessage_of_over {id : Bytes} {c : Closing} (h : c.over = true) :
    reportMessage C id (some c) = none := by
  refine reportMessage_of_ne fun hc => ?_
  rw [Option.some.inj hc] at h
  exact absurd h (by simp [Closing.over])

theorem taskMessage_call {id : Bytes} {p : Processor} {c : Closing} (h : p.call = some c) :
    taskMessage C id p = reportMessage C id (some c) := by
  rw [← h]
  unfold taskMessage
  split
  · exact absurd h (by simp [Processor.call])
  · exact absurd h (by simp [Processor.call])
  · rfl

/-- A thread in a call of `close` or `remoteClose` pushes what the call pushes. -/
theorem pushed_call {s : State} {a : Action} {c : Closing} (h : s.call a = some c) :
    pushed C s a = reportMessage C s.client.id (some c) := by
  cases a with
  | destroyer => exact congrArg (reportMessage C s.client.id) h
  | processor => exact taskMessage_call h
  | event _ | thread _ | signalingSet _ | signalingGet _ | release => exact absurd h (by simp [State.call])

/-- What a step of `close` or `remoteClose` does to the queue. -/
theorem ClosingStepped.queue {own : Bool} {s s' : State} {c c' : Closing} (h : ClosingStepped C own s c s' c') :
    (∃ text, reportMessage C s.client.id (some c) = some text ∧
      s.client.signalingQueueOut.tryPush text = some s'.client.signalingQueueOut) ∨
    (reportMessage C s.client.id (some c) = none ∧
      s'.client.signalingQueueOut = s.client.signalingQueueOut) := by
  cases h with
  | reported htext hq => exact .inl ⟨_, htext, hq⟩
  | threw hnone => exact .inr ⟨hnone, rfl⟩
  | again _ | entered _ | shutDown _ | passed _ | lost _ | changed _ | stolen _ | reset _ =>
      exact .inr ⟨reportMessage_of_ne (by simp), rfl⟩

/-- The client's thread leaves the queue and the id alone. -/
theorem thread_frame {k k' : Client} {a : ClientAction} (ha : ofThread a = true)
    (h : Streamer.stepClient C k a = some (k', none)) :
    k'.id = k.id ∧ k'.signalingQueueOut = k.signalingQueueOut ∧ k'.lifetime = k.lifetime := by
  cases Streamer.stepClient_cases h with
  | checked _ | stopped _ _ | popped _ _ | applied _ => exact ⟨rfl, rfl, rfl⟩
  | stateChanged _ | gatheringStateChanged _ | pushed _ _ _ => exact absurd ha (by simp [ofThread])

/-- **Every push is shown**: what a step shows is what it pushes, and a step that shows nothing adds nothing
    to the queue. -/
theorem push_shown {s s' : State} {a : Action} (h : step C s a = some s') :
    (∃ text, pushed C s a = some text ∧
      s.client.signalingQueueOut.tryPush text = some s'.client.signalingQueueOut) ∨
    (pushed C s a = none ∧
      ∀ x ∈ s'.client.signalingQueueOut.queue, x ∈ s.client.signalingQueueOut.queue) := by
  cases step_cases h with
  | destroyer hst =>
      cases hst with
      | body hd _ _ hk | joined hd _ hk | closed hd hk =>
          obtain ⟨-, -, -, -, hq⟩ := Streamer.destroy_cases hk
          exact .inr ⟨by rw [pushed, hd]; rfl, fun x hx => hq ▸ hx⟩
      | close hd _ | member hd _ | dropped hd _ | last hd _ =>
          exact .inr ⟨by rw [pushed, hd]; rfl, fun x hx => hx⟩
      | released hd hover =>
          have hcall : s.call .destroyer = some _ := congrArg Destroyer.call hd
          exact .inr ⟨(pushed_call hcall).trans (reportMessage_of_over hover), fun x hx => hx⟩
      | closing hd hc | releasing hd hc =>
          have hcall : s.call .destroyer = some _ := congrArg Destroyer.call hd
          rw [pushed_call hcall]
          rcases hc.queue with hpush | ⟨hno, hq⟩
          · exact .inl hpush
          · exact .inr ⟨hno, fun x hx => hq ▸ hx⟩
  | processor hst =>
      cases hst with
      | started hp _ | gatheringEnded hp _ | locked hp _ _ | threw hp _ _ | dropped hp _ | last hp _ =>
          exact .inr ⟨by rw [pushed, hp]; rfl, fun x hx => hx⟩
      | stateChangePushed hp htext hq => exact .inl ⟨_, by rw [pushed, hp]; exact htext, hq⟩
      | stateChangeEnded hp hnone => exact .inr ⟨by rw [pushed, hp]; exact hnone, fun x hx => hx⟩
      | gatheringPushed hp hq => exact .inl ⟨_, by rw [pushed, hp]; rfl, hq⟩
      | destroyed hp hover | closed hp hover =>
          have hcall : s.call .processor = some _ := congrArg Processor.call hp
          exact .inr ⟨(pushed_call hcall).trans (reportMessage_of_over hover), fun x hx => hx⟩
      | destroying hp hc | closing hp hc =>
          have hcall : s.call .processor = some _ := congrArg Processor.call hp
          rw [pushed_call hcall]
          rcases hc.queue with hpush | ⟨hno, hq⟩
          · exact .inl hpush
          · exact .inr ⟨hno, fun x hx => hq ▸ hx⟩
  | event _ | signalingSet _ _ | release _ => exact .inr ⟨rfl, fun x hx => hx⟩
  | thread ha hk =>
      obtain ⟨-, hq, -⟩ := thread_frame ha hk
      exact .inr ⟨rfl, fun x hx => hq ▸ hx⟩
  | signalingGet _ hq =>
      refine .inr ⟨rfl, fun x hx => ?_⟩
      rcases BlockingQueue.tryPopFor_cases hq with ⟨-, -, -, rfl⟩ | ⟨y, rest, hqueue, -, rfl⟩
      · exact hx
      · rw [hqueue]
        exact List.mem_cons_of_mem y hx

/-! ## What no step changes back -/

theorem id_step {s s' : State} {a : Action} (h : step C s a = some s') : s'.client.id = s.client.id := by
  cases step_cases h with
  | destroyer hst =>
      cases hst with
      | body _ _ _ hk | joined _ _ hk | closed _ hk => exact (Streamer.destroy_cases hk).2.2.1
      | close _ _ | member _ _ | dropped _ _ | last _ _ | released _ _ => rfl
      | closing _ hc | releasing _ hc => rw [hc.frame.2.2.1]
  | processor hst => rw [hst.frame.2.1]
  | thread ha hk => exact (thread_frame ha hk).1
  | event _ | signalingSet _ _ | signalingGet _ _ | release _ => rfl

theorem mem_members (m : Member) : m ∈ members := by
  cases m <;> decide

/-- What has begun to be destroyed stays so. -/
theorem gone_step {s s' : State} {a : Action} {m : Member} (h : step C s a = some s')
    (hg : s.destroyer.gone m = true) : s'.destroyer.gone m = true := by
  by_cases ha : a = .destroyer
  · subst ha
    cases step_cases h with
    | destroyer hst =>
        cases hst with
        | body hd _ _ _ | close hd _ | joined hd _ _ | closed hd _ | closing hd _ =>
            rw [hd] at hg
            exact absurd hg (by simp [Destroyer.gone])
        | member hd _ | dropped hd _ | last hd _ =>
            rw [hd] at hg
            simp only [Destroyer.gone, List.contains_cons, Bool.not_or, Bool.and_eq_true] at hg ⊢
            exact hg.2
        | released hd _ | releasing hd _ =>
            rw [hd] at hg
            exact hg
  · rw [destroyer_eq h ha]
    exact hg

/-- The destruction of a member begins when it is its turn. -/
theorem gone_begins {s s' : State} {a : Action} {m : Member} (h : step C s a = some s')
    (hg : s'.destroyer.gone m = true) :
    s.destroyer.gone m = true ∨ (a = .destroyer ∧ ∃ rest, s.destroyer = .members (m :: rest)) := by
  by_cases ha : a = .destroyer
  · subst ha
    cases step_cases h with
    | destroyer hst =>
        cases hst with
        | body _ _ _ _ | close _ _ | closed _ _ | closing _ _ => exact absurd hg (by simp [Destroyer.gone])
        | joined _ _ _ => exact absurd hg (by simp [Destroyer.gone, mem_members])
        | @member n rest hd _ =>
            by_cases hmn : m = n
            · subst hmn
              exact .inr ⟨rfl, rest, hd⟩
            · left
              rw [hd]
              simpa [Destroyer.gone, hmn] using hg
        | @dropped rest hd _ | @last rest hd _ =>
            by_cases hm : m = .peerConnection
            · subst hm
              exact .inr ⟨rfl, rest, hd⟩
            · left
              rw [hd]
              simpa [Destroyer.gone, hm] using hg
        | released hd _ | releasing hd _ =>
            left
            rw [hd]
            exact hg
  · rw [destroyer_eq h ha] at hg
    exact .inl hg

/-! ## After the report -/

/-- The report has returned, and it is not left to `~Client` to reset the callbacks. -/
def State.Silent (s : State) : Prop :=
  ∃ ph, s.InPhase ph ∧ ph.reported = true ∧ winner s.destroyer.call = none

theorem State.Silent.pushed_none {s : State} (h : s.Silent) (hc : s.Calling) (a : Action) :
    pushed C s a = none := by
  obtain ⟨ph, hph, hrep, hwin⟩ := h
  have hreport : ∀ {c}, winner c = ph.position → c ≠ some .report := by
    rintro c hpos rfl
    rcases Phase.reported_cases hrep with rfl | rfl <;> exact absurd hpos (by decide)
  have hcall : s.processor.call ≠ some .report := by
    rcases hph.winner with ⟨-, hnone⟩ | ⟨-, hpos⟩
    · intro hcall
      rw [hcall] at hnone
      exact absurd hnone (by decide)
    · exact hreport hpos
  cases a with
  | destroyer =>
      refine reportMessage_of_ne fun hcall => ?_
      rw [hcall] at hwin
      exact absurd hwin (by decide)
  | processor =>
      unfold pushed taskMessage
      dsimp only
      split
      · -- the state-change callback has been taken away
        rename_i hp
        have hreg := hph.stateChange.symm.trans (hc.stateChange (by rw [hp]; rfl))
        rcases Phase.reported_cases hrep with rfl | rfl <;> exact absurd hreg (by simp [Phase.registered])
      · -- registered, so it is still to be reset, and the processor is elsewhere
        rename_i hp
        have hopen := hph.gathering.mp (hc.gathering (by rw [hp]; rfl))
        obtain rfl := (Phase.reported_cases hrep).resolve_right hopen
        rcases hph.winner with ⟨hpos, -⟩ | ⟨-, hpos⟩
        · exact absurd (hwin.symm.trans hpos) (by decide)
        · rw [hp] at hpos
          exact absurd hpos (by simp [Processor.call, Phase.position])
      · exact reportMessage_of_ne hcall
  | event _ | thread _ | signalingSet _ | signalingGet _ | release => rfl

/-- A thread that has not made the change to `Closed` does not get to the reset once it is made. -/
theorem ClosingStepped.winner_none {own : Bool} {s s' : State} {c c' : Closing}
    (h : ClosingStepped C own s c s' c') (hc : winner (some c) = none)
    (hclosed : s.peerConnection.state = .closed) : winner (some c') = none := by
  cases h with
  | @again remote _ => cases remote <;> rfl
  | entered _ | shutDown _ | passed _ | lost _ => rfl
  | changed hopen => exact absurd hclosed hopen
  | stolen _ | reported _ _ | threw _ | reset _ => exact absurd hc (by decide)

theorem State.Silent.step {s s' : State} {a : Action} (h : s.Silent)
    (hdump : (stateChangeMessage C s.client.id .closed).isSome) (hst : step C s a = some s') : s'.Silent := by
  obtain ⟨ph, hph, hrep, hwin⟩ := h
  have hclosed : s.peerConnection.state = .closed := by
    refine hph.state.mpr ?_
    rintro rfl
    exact absurd hrep (by simp [Phase.reported])
  obtain ⟨ph', hph', hmoves⟩ := phase_step hph hdump hst
  refine ⟨ph', hph', hmoves.reported hrep, ?_⟩
  by_cases ha : a = .destroyer
  · subst ha
    cases step_cases hst with
    | destroyer hst =>
        cases hst with
        | body _ _ _ _ | close _ _ | joined _ _ _ | closed _ _ | member _ _ | dropped _ _ | last _ _
        | released _ _ => rfl
        | closing hd hc | releasing hd hc =>
            rw [hd] at hwin
            exact hc.winner_none hwin hclosed
  · rw [destroyer_eq hst ha]
    exact hwin

end Teardown

end WebrtcStreamer
