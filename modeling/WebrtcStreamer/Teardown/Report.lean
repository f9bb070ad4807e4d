import WebrtcStreamer.Teardown.Inversion

/-!
# `Teardown.Report` — the report of `Closed` and the end of the callbacks

Two threads may be in `close` or `remoteClose` at once. The one whose `changeState` reaches `Closed` reports
it and resets the callbacks, the other leaves again: `Phase` says how far that has got, and `phase_step`
that it only goes forward, one stage at a time.

The id is valid UTF-8 throughout. For another one the report throws and nothing is reset; the callbacks have
nothing to push then, which `Teardown.LatePush` treats apart.
-/

namespace WebrtcStreamer

namespace Teardown

open Streamer (PeerState DescriptionType stateChangeMessage)
open Transition

variable {C : Codec}

/-! ## Stages -/

inductive Phase
  | before
  | stealing
  | reporting
  | resetting
  | closed
deriving DecidableEq

/-- Where the thread stands that has made the change to `Closed`. -/
def Phase.position : Phase → Option Closing
  | .before | .closed => none
  | .stealing => some .steal
  | .reporting => some .report
  | .resetting => some .reset

/-- The state-change callback is still registered. -/
def Phase.registered : Phase → Bool
  | .before | .stealing => true
  | .reporting | .resetting | .closed => false

/-- The callback called with `Closed` has returned. -/
def Phase.reported : Phase → Bool
  | .before | .stealing | .reporting => false
  | .resetting | .closed => true

theorem Phase.reported_cases {ph : Phase} (h : ph.reported = true) : ph = .resetting ∨ ph = .closed := by
  cases ph with
  | resetting => exact .inl rfl
  | closed => exact .inr rfl
  | before | stealing | reporting => exact absurd h (by simp [Phase.reported])

/-- The stages a call of `close` or `remoteClose` leads through. -/
inductive Phase.Next : Closing → Phase → Phase → Prop
  | changed : Next .change .before .stealing
  | stolen : Next .steal .stealing .reporting
  | reported : Next .report .reporting .resetting
  | reset : Next .reset .resetting .closed

/-- Only the thread that has made the change gets here. -/
def Closing.won : Closing → Bool
  | .steal | .report | .reset => true
  | _ => false

/-- The stage after a step by a thread in that call: only one that has won, or wins, moves it. -/
inductive Phase.Moves (ph : Phase) : Option Closing → Phase → Prop
  | idle : Moves ph none ph
  | kept {c} : c.won = false → Moves ph (some c) ph
  | next {c ph'} : Next c ph ph' → Moves ph (some c) ph'

theorem Phase.Moves.reported {ph ph' : Phase} {o : Option Closing} (h : Phase.Moves ph o ph')
    (hrep : ph.reported = true) : ph'.reported = true := by
  cases h with
  | idle | kept _ => exact hrep
  | next hn =>
      cases hn with
      | reported | reset => rfl
      | changed | stolen => exact absurd hrep (by simp [Phase.reported])

/-- The call, if its thread has won. -/
def winner (c : Option Closing) : Option Closing := c.filter Closing.won

@[simp] theorem winner_none : winner none = none := rfl

theorem winner_some (c : Closing) : winner (some c) = if c.won then some c else none := by
  cases c <;> rfl

/-- The call that the thread in `~Client` is in. -/
def Destroyer.call : Destroyer → Option Closing
  | .closing c | .releasing c _ => some c
  | .body | .members _ => none

/-- The call that the processor is in. -/
def Processor.call : Processor → Option Closing
  | .closing c | .gathering (.destroying c) => some c
  | _ => none

/-- The `PeerConnection` at a stage, with the calls that the two threads are in. -/
structure InPhase (pc : PeerConnection) (c d : Option Closing) (ph : Phase) : Prop where
  state : pc.state = .closed ↔ ph ≠ .before
  stateChange : pc.stateChangeCallback = ph.registered
  gathering : pc.gatheringStateChangeCallback = true ↔ ph ≠ .closed
  winner : (winner c = ph.position ∧ winner d = none) ∨ (winner c = none ∧ winner d = ph.position)

theorem InPhase.symm {pc : PeerConnection} {c d : Option Closing} {ph : Phase} (h : InPhase pc c d ph) :
    InPhase pc d c ph :=
  { h with winner := h.winner.symm.imp And.symm And.symm }

/-- The threads move without a stage being reached. -/
theorem InPhase.keep {pc pc' : PeerConnection} {c c' d d' : Option Closing} {ph : Phase} (h : InPhase pc c d ph)
    (hstate : pc'.state = .closed ↔ pc.state = .closed)
    (hcallback : pc'.stateChangeCallback = pc.stateChangeCallback)
    (hgathering : pc'.gatheringStateChangeCallback = pc.gatheringStateChangeCallback)
    (hc : Teardown.winner c' = Teardown.winner c) (hd : Teardown.winner d' = Teardown.winner d) :
    InPhase pc' c' d' ph where
  state := hstate.trans h.state
  stateChange := hcallback.trans h.stateChange
  gathering := by rw [hgathering]; exact h.gathering
  winner := by rw [hc, hd]; exact h.winner

/-- At a winning position, the stage is the one that the position belongs to, and the other thread has not
    won. -/
theorem InPhase.position_eq {pc : PeerConnection} {c : Closing} {d : Option Closing} {ph : Phase}
    (h : InPhase pc (some c) d ph) (hc : c.won = true) :
    ph.position = some c ∧ Teardown.winner d = none := by
  have hw : Teardown.winner (some c) = some c := by rw [winner_some, if_pos hc]
  rcases h.winner with ⟨h₁, h₂⟩ | ⟨h₁, -⟩
  · exact ⟨h₁.symm.trans hw, h₂⟩
  · exact absurd (hw.symm.trans h₁) (by simp)

/-! ## One step of a call -/

theorem InPhase.closing {own : Bool} {s s' : State} {c c' : Closing} {d : Option Closing} {ph : Phase}
    (h : InPhase s.peerConnection (some c) d ph)
    (hdump : (stateChangeMessage C s.client.id .closed).isSome) (hst : ClosingStepped C own s c s' c') :
    ∃ ph', InPhase s'.peerConnection (some c') d ph' ∧ Phase.Moves ph (some c) ph' := by
  cases hst with
  | @again remote _ =>
      exact ⟨ph, h.keep Iff.rfl rfl rfl (by cases remote <;> rfl) rfl, .kept rfl⟩
  | entered _ | shutDown _ | passed _ | lost _ => exact ⟨ph, h.keep Iff.rfl rfl rfl rfl rfl, .kept rfl⟩
  -- Only the first of the two calls changes the state; from here on it is the one on the way to the report.
  | changed hopen =>
      obtain rfl : ph = .before := by
        by_contra hne
        exact hopen (h.state.mpr hne)
      have hd : Teardown.winner d = none := by
        rcases h.winner with ⟨-, hd⟩ | ⟨-, hd⟩
        · exact hd
        · exact hd
      exact ⟨.stealing, ⟨by simp, h.stateChange, by simpa using h.gathering, .inl ⟨rfl, hd⟩⟩, .next .changed⟩
  | stolen _ =>
      obtain ⟨hpos, hd⟩ := h.position_eq rfl
      obtain rfl : ph = .stealing := by cases ph <;> simp [Phase.position] at hpos ⊢
      have hcallback : s.peerConnection.stateChangeCallback = true := h.stateChange
      rw [if_pos hcallback]
      exact ⟨.reporting, ⟨by simpa using h.state, rfl, by simpa using h.gathering, .inl ⟨rfl, hd⟩⟩,
        .next .stolen⟩
  | reported _ _ =>
      obtain ⟨hpos, hd⟩ := h.position_eq rfl
      obtain rfl : ph = .reporting := by cases ph <;> simp [Phase.position] at hpos ⊢
      exact ⟨.resetting, ⟨by simpa using h.state, h.stateChange, by simpa using h.gathering,
        .inl ⟨rfl, hd⟩⟩, .next .reported⟩
  | threw hnone =>
      rw [hnone] at hdump
      exact absurd hdump (by simp)
  | reset _ =>
      obtain ⟨hpos, hd⟩ := h.position_eq rfl
      obtain rfl : ph = .resetting := by cases ph <;> simp [Phase.position] at hpos ⊢
      exact ⟨.closed, ⟨by simpa using h.state, h.stateChange, by simp, .inl ⟨rfl, hd⟩⟩, .next .reset⟩

/-! ## All steps -/

def State.InPhase (s : State) (ph : Phase) : Prop :=
  Teardown.InPhase s.peerConnection s.destroyer.call s.processor.call ph

theorem inPhase_init (id : Bytes) (localDescription : DescriptionType × Bytes) :
    (init id localDescription).InPhase .before where
  state := by simp [init, PeerConnection.new]
  stateChange := rfl
  gathering := by simp [init, PeerConnection.new]
  winner := .inl ⟨rfl, rfl⟩

/-- The thread that takes the step, and the call that it is in. -/
def State.call (s : State) : Action → Option Closing
  | .destroyer => s.destroyer.call
  | .processor => s.processor.call
  | _ => none

theorem won_over {c : Closing} (h : c.over = true) : c.won = false := by
  cases c with
  | returned | thrown => rfl
  | exchange _ | transport _ | change | steal | report | reset => exact absurd h (by simp [Closing.over])

theorem winner_over {c : Closing} (h : c.over = true) : winner (some c) = none := by
  rw [winner_some, won_over h]
  rfl

theorem start_call (pc : PeerConnection) (task : Task) : winner (pc.start task).call = none := by
  cases task with
  | remoteClose => rfl
  | stateChange state | gatheringStateChange state =>
      unfold PeerConnection.start
      dsimp only
      split <;> rfl

/-- An event neither leads to `Closed` nor away from it, and leaves the callbacks alone. -/
theorem apply_frame {pc pc' : PeerConnection} {e : Event} (h : pc.apply e = some pc') :
    (pc'.state = .closed ↔ pc.state = .closed) ∧ pc'.stateChangeCallback = pc.stateChangeCallback ∧
      pc'.gatheringStateChangeCallback = pc.gatheringStateChangeCallback := by
  cases e with
  | stateChange state =>
      simp only [PeerConnection.apply] at h
      split at h
      · exact absurd h (by simp)
      · rename_i hno
        obtain rfl := Option.some.inj h
        simp only [not_or] at hno
        exact ⟨⟨fun hs => absurd hs hno.1, fun hs => absurd hs hno.2.1⟩, rfl, rfl⟩
  | gatheringStateChange state =>
      simp only [PeerConnection.apply] at h
      split at h
      · exact absurd h (by simp)
      · obtain rfl := Option.some.inj h
        exact ⟨Iff.rfl, rfl, rfl⟩
  | localDescription type sdp | sctpTransport there | remoteClose =>
      obtain rfl := Option.some.inj h
      exact ⟨Iff.rfl, rfl, rfl⟩

/-- **The report goes forward**, one stage at a time, and by a step of the call that is there. -/
theorem phase_step {s s' : State} {a : Action} {ph : Phase} (h : s.InPhase ph)
    (hdump : (stateChangeMessage C s.client.id .closed).isSome) (hst : step C s a = some s') :
    ∃ ph', s'.InPhase ph' ∧ Phase.Moves ph (s.call a) ph' := by
  unfold State.InPhase at h
  cases step_cases hst with
  | destroyer hst =>
      show ∃ ph', _ ∧ Phase.Moves ph s.destroyer.call ph'
      cases hst with
      | body hd _ _ _ | close hd _ | joined hd _ _ | member hd _ | dropped hd _ | last hd _ =>
          rw [hd] at h ⊢
          exact ⟨ph, h.keep Iff.rfl rfl rfl rfl rfl, .idle⟩
      | closed hd _ =>
          rw [hd] at h ⊢
          exact ⟨ph, h.keep Iff.rfl rfl rfl rfl rfl, .kept rfl⟩
      | released hd hover =>
          rw [hd] at h ⊢
          exact ⟨ph, h.keep Iff.rfl rfl rfl (winner_over hover).symm rfl, .kept (won_over hover)⟩
      | @closing c s₁ c' hd hc | @releasing c _ s₁ c' hd hc =>
          rw [hd] at h ⊢
          obtain ⟨ph', hph, hmoves⟩ := InPhase.closing h hdump hc
          refine ⟨ph', ?_, hmoves⟩
          show InPhase s₁.peerConnection (some c') s₁.processor.call ph'
          rw [hc.frame.1]
          exact hph
  | processor hst =>
      show ∃ ph', _ ∧ Phase.Moves ph s.processor.call ph'
      cases hst with
      | @started task rest hp _ =>
          rw [hp] at h ⊢
          exact ⟨ph, h.keep Iff.rfl rfl rfl rfl (start_call s.peerConnection task), .idle⟩
      | stateChangePushed hp _ _ | stateChangeEnded hp _ | gatheringEnded hp _ | locked hp _ _ | threw hp _ _
      | gatheringPushed hp _ | dropped hp _ | last hp _ =>
          rw [hp] at h ⊢
          exact ⟨ph, h.keep Iff.rfl rfl rfl rfl rfl, .idle⟩
      | destroyed hp hover | closed hp hover =>
          rw [hp] at h ⊢
          exact ⟨ph, h.keep Iff.rfl rfl rfl rfl (winner_over hover).symm, .kept (won_over hover)⟩
      -- As for the destructor, with the two threads exchanged.
      | @destroying c s₁ c' hp hc | @closing c s₁ c' hp hc =>
          rw [hp] at h ⊢
          obtain ⟨ph', hph, hmoves⟩ := InPhase.closing h.symm hdump hc
          refine ⟨ph', ?_, hmoves⟩
          show InPhase s₁.peerConnection s₁.destroyer.call (some c') ph'
          rw [hc.frame.2.1]
          exact hph.symm
  | event he =>
      obtain ⟨hstate, hcallback, hgathering⟩ := apply_frame he
      exact ⟨ph, h.keep hstate hcallback hgathering rfl rfl, .idle⟩
  | thread _ _ | signalingSet _ _ | signalingGet _ _ | release _ => exact ⟨ph, h, .idle⟩

/-! ## Reported -/

/-- The callback called with `Closed` is yet to return. -/
def Closing.reporting : Closing → Bool
  | .steal | .report => true
  | _ => false

/-- The state is `Closed`, and the callback called with it has returned. -/
def State.reported (s : State) : Bool :=
  s.peerConnection.state == .closed && !s.destroyer.call.any Closing.reporting &&
    !s.processor.call.any Closing.reporting

theorem any_reporting (c : Option Closing) : c.any Closing.reporting = (winner c).any Closing.reporting := by
  cases c with
  | none => rfl
  | some c => cases c <;> rfl

theorem State.InPhase.reported_eq {s : State} {ph : Phase} (h : s.InPhase ph) : s.reported = ph.reported := by
  have hstate := h.state
  have hwinner := h.winner
  unfold State.reported
  rw [any_reporting, any_reporting s.processor.call]
  cases ph with
  | before =>
      have hopen : s.peerConnection.state ≠ .closed := fun hc => hstate.mp hc rfl
      simp [hopen, Phase.reported]
  | stealing | reporting | resetting | closed =>
      have hclosed : s.peerConnection.state = .closed := hstate.mpr (by simp)
      rcases hwinner with ⟨h₁, h₂⟩ | ⟨h₁, h₂⟩ <;>
        rw [h₁, h₂, hclosed] <;> rfl

/-! ## Callbacks under way -/

/-- In the gathering-state callback, short of the release of `pc`. -/
def Processor.calling : Processor → Bool
  | .gathering (.destroying _) => false
  | .gathering _ => true
  | _ => false

theorem Processor.inGathering_of_calling {p : Processor} (h : p.calling = true) : p.inGathering = true := by
  cases p with
  | gathering g => rfl
  | idle | stateChange _ | closing _ => exact absurd h (by simp [Processor.calling])

/-- A callback that is under way is registered: taking it away waits for it. -/
structure State.Calling (s : State) : Prop where
  stateChange : s.processor.inStateChange = true → s.peerConnection.stateChangeCallback = true
  gathering : s.processor.calling = true → s.peerConnection.gatheringStateChangeCallback = true

theorem calling_init (id : Bytes) (localDescription : DescriptionType × Bytes) :
    (init id localDescription).Calling where
  stateChange := fun _ => rfl
  gathering := fun _ => rfl

/-- A callback is called only while it is registered. -/
theorem start_calling (pc : PeerConnection) (task : Task) :
    ((pc.start task).inStateChange = true → pc.stateChangeCallback = true) ∧
      ((pc.start task).calling = true → pc.gatheringStateChangeCallback = true) := by
  cases task with
  | remoteClose => simp [PeerConnection.start, Processor.inStateChange, Processor.calling]
  | stateChange state =>
      cases hc : pc.stateChangeCallback <;>
        simp [PeerConnection.start, hc, Processor.inStateChange, Processor.calling]
  | gatheringStateChange state =>
      cases hc : pc.gatheringStateChangeCallback <;>
        simp [PeerConnection.start, hc, Processor.inStateChange, Processor.calling]

theorem State.Calling.closing {s s' : State} {c c' : Closing} (h : s.Calling)
    (hst : ClosingStepped C false s c s' c') : s'.Calling := by
  cases hst with
  | again _ | entered _ | shutDown _ | passed _ | lost _ | changed _ | reported _ _ | threw _ =>
      exact ⟨h.stateChange, h.gathering⟩
  | stolen hfree => exact ⟨fun hin => absurd (hfree.symm.trans hin) (by simp), h.gathering⟩
  | reset hfree =>
      have hfree := hfree.resolve_left (by simp)
      refine ⟨h.stateChange, fun hin => ?_⟩
      exact absurd (hfree.symm.trans (Processor.inGathering_of_calling hin)) (by simp)

theorem calling_step {s s' : State} {a : Action} (h : s.Calling) (hst : step C s a = some s') : s'.Calling := by
  cases step_cases hst with
  | destroyer hst =>
      cases hst with
      | body _ _ _ _ | close _ _ | joined _ _ _ | closed _ _ | member _ _ | dropped _ _ | last _ _
      | released _ _ => exact ⟨h.stateChange, h.gathering⟩
      | closing _ hc | releasing _ hc =>
          have h' := h.closing hc
          exact ⟨h'.stateChange, h'.gathering⟩
  | processor hst =>
      cases hst with
      | @started task rest _ _ =>
          obtain ⟨hstateChange, hgathering⟩ := start_calling s.peerConnection task
          exact ⟨hstateChange, hgathering⟩
      | stateChangePushed _ _ _ | stateChangeEnded _ _ | gatheringEnded _ _ | dropped _ _ | last _ _
      | destroyed _ _ | destroying _ _ | closed _ _ | closing _ _ =>
          exact ⟨fun hin => absurd hin (by simp [Processor.inStateChange]),
            fun hin => absurd hin (by simp [Processor.calling])⟩
      | locked hp _ _ | threw hp _ _ | gatheringPushed hp _ =>
          have hcalling := h.gathering (by rw [hp]; rfl)
          exact ⟨fun hin => absurd hin (by simp [Processor.inStateChange]), fun _ => hcalling⟩
  | event he =>
      obtain ⟨-, hcallback, hgathering⟩ := apply_frame he
      exact ⟨fun hin => hcallback.trans (h.stateChange hin), fun hin => hgathering.trans (h.gathering hin)⟩
  | thread _ _ | signalingSet _ _ | signalingGet _ _ | release _ => exact ⟨h.stateChange, h.gathering⟩

end Teardown

end WebrtcStreamer
