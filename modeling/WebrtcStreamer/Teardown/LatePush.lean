import WebrtcStreamer.Lib.JsonText
import WebrtcStreamer.Teardown.Progress

/-!
# `Teardown.LatePush` — pushes into a destroyed queue

`~Client` stops the queues and closes the `PeerConnection` before the members go, but nothing waits for the
callbacks: `close` only starts the shutdown of a connected peer, `_signalingQueueOut` is destroyed before
`_peerConnection`, and `~PeerConnection` reports `Closed` at the latest.

So the report decides. If it has returned when it is the queue's turn, no callback pushes afterwards
(`no_late_push`); if it has not, going on leads to a push into the destroyed queue (`late_push_iff`).
-/

namespace WebrtcStreamer

namespace Teardown

open Streamer (PeerState GatheringState DescriptionType stateChangeMessage gatheringMessage descriptionMessage)
open Transition

variable {C : Codec}

/-- When it is the turn of `_signalingQueueOut`, the report of `Closed` has returned. -/
def ReportedFirst (s : State) (a : Action) : Prop :=
  ∀ rest, a = .destroyer → s.destroyer = .members (.signalingQueueOut :: rest) → s.reported = true

/-! ## An id that is not valid UTF-8 -/

theorem stateChangeMessage_none {id : Bytes} (hid : utf8Valid id = false) (state : PeerState) :
    stateChangeMessage C id state = none := by
  have hclosed : stateChangeMessage C id .closed = none := by
    rw [← Option.not_isSome_iff_eq_none, closedMessage_isSome, hid]
    simp
  cases state with
  | new | connecting | connected => rfl
  | disconnected | failed | closed => exact hclosed

theorem gatheringMessage_none {id : Bytes} (hid : utf8Valid id = false) (type : DescriptionType) (sdp : Bytes)
    (state : GatheringState) : gatheringMessage C id type sdp state = none := by
  cases state with
  | new | inProgress => rfl
  | complete =>
      show C.dump (descriptionMessage id type sdp) = none
      rw [← Option.not_isSome_iff_eq_none, C.dump_isSome (Streamer.wf_descriptionMessage _ id type sdp)]
      rintro ⟨-, hvalid, -⟩
      exact absurd (hid.symm.trans hvalid) (by simp)

/-- The callbacks have nothing that can be written, and push nothing. -/
def Mute (s : State) : Prop :=
  utf8Valid s.client.id = false ∧ ∀ message, s.processor ≠ .gathering (.pushing message)

theorem Mute.pushed_none {s : State} (h : Mute s) (a : Action) : pushed C s a = none := by
  obtain ⟨hid, hpushing⟩ := h
  have hnone : ∀ {c : Option Closing}, reportMessage C s.client.id c = none := by
    intro c
    rw [reportMessage, stateChangeMessage_none hid, ite_self]
  cases a with
  | destroyer => exact hnone
  | processor =>
      unfold pushed taskMessage
      dsimp only
      split
      · exact stateChangeMessage_none hid _
      · rename_i hp
        exact absurd hp (hpushing _)
      · exact hnone
  | event _ | thread _ | signalingSet _ | signalingGet _ | release => rfl

theorem Mute.step {s s' : State} {a : Action} (h : Mute s) (hst : step C s a = some s') : Mute s' := by
  refine ⟨by rw [id_step hst]; exact h.1, ?_⟩
  cases step_cases hst with
  | destroyer hst =>
      cases hst with
      | body _ _ _ _ | close _ _ | joined _ _ _ | closed _ _ | member _ _ | dropped _ _ | last _ _
      | released _ _ => exact h.2
      | closing _ hc | releasing _ hc =>
          show ∀ message, _ ≠ _
          rw [hc.frame.1]
          exact h.2
  | processor hst =>
      cases hst with
      | @started task _ _ _ =>
          intro message
          cases task with
          | remoteClose => simp [PeerConnection.start]
          | stateChange _ | gatheringStateChange _ =>
              simp only [PeerConnection.start]
              split <;> simp
      | locked _ _ hm => exact absurd (hm.symm.trans (gatheringMessage_none h.1 _ _ _)) (by simp)
      | stateChangePushed _ _ _ | stateChangeEnded _ _ | gatheringEnded _ _ | threw _ _ _
      | gatheringPushed _ _ | dropped _ _ | last _ _ | destroyed _ _ | destroying _ _ | closed _ _
      | closing _ _ => simp
  | event _ | thread _ _ | signalingSet _ _ | signalingGet _ _ | release _ => exact h.2

theorem mute_init {id : Bytes} (hid : utf8Valid id = false) (localDescription : DescriptionType × Bytes) :
    Mute (init id localDescription) :=
  ⟨hid, fun message => by simp [init]⟩

/-! ## The report has returned first -/

/-- Once the destruction of the queue has begun, the callbacks are silent. -/
structure Kept (s : State) : Prop where
  sane : Sane s
  silent : s.destroyer.gone .signalingQueueOut = true → s.Silent

theorem Kept.latePushes_nil {s : State} (h : Kept s) (a : Action) : latePushes C s a = [] := by
  unfold latePushes
  split
  · rename_i hgone
    rw [(h.silent hgone).pushed_none h.sane.calling]
    rfl
  · rfl

theorem Kept.step {s s' : State} {a : Action} (h : Kept s) (hfirst : ReportedFirst s a)
    (hst : step C s a = some s') : Kept s' := by
  refine ⟨h.sane.step hst, fun hgone => ?_⟩
  rcases gone_begins hst hgone with hgone | ⟨rfl, rest, hd⟩
  · exact (h.silent hgone).step h.sane.dump hst
  · -- the queue's turn: nobody else than the processor is in a call
    obtain ⟨ph, hph⟩ := h.sane.phase
    have hrep : ph.reported = true := hph.reported_eq.symm.trans (hfirst rest rfl hd)
    have hsilent : s.Silent := ⟨ph, hph, hrep, by rw [hd]; rfl⟩
    exact hsilent.step h.sane.dump hst

/-- No callback pushes from here on. -/
def Quiet (s : State) : Prop := Mute s ∨ (Sane s ∧ s.Silent)

theorem Quiet.run {s s' : State} {u : List Action} (h : Quiet s) (hu : exec (step C) s u = some s') :
    trace (step C) (latePushes C) s u = [] := by
  refine trace_eq_nil (G := fun _ _ => True) (I := Quiet) ?_ ?_ u s s' h (always_of_forall (by simp) u s) hu
  · rintro s a s' - (hmute | ⟨hsane, hsilent⟩) hst
    · exact .inl (hmute.step hst)
    · exact .inr ⟨hsane.step hst, hsilent.step hsane.dump hst⟩
  · rintro s a s' - (hmute | ⟨hsane, hsilent⟩) -
    · rw [latePushes, hmute.pushed_none, Option.toList_none, ite_self]
    · rw [latePushes, hsilent.pushed_none hsane.calling, Option.toList_none, ite_self]

theorem kept_init {id : Bytes} (hid : utf8Valid id = true) (localDescription : DescriptionType × Bytes) :
    Kept (init id localDescription) where
  sane := sane_init hid localDescription
  silent := fun hgone => absurd hgone (by simp [init, Destroyer.gone])

/-- **No push into a destroyed queue**: in a run in which the report of `Closed` has returned when it is the
    turn of `_signalingQueueOut`. -/
theorem no_late_push {id : Bytes} {localDescription : DescriptionType × Bytes} {t : List Action} {s : State}
    (h : exec (step C) (init id localDescription) t = some s)
    (hfirst : utf8Valid id = false ∨ Always (step C) ReportedFirst (init id localDescription) t) :
    trace (step C) (latePushes C) (init id localDescription) t = [] := by
  cases hid : utf8Valid id with
  | true =>
      have hfirst := hfirst.resolve_left (by simp [hid])
      exact trace_eq_nil (fun s a s' hG hI hst => Kept.step hI hG hst)
        (fun s a s' _ hI _ => hI.latePushes_nil a) t _ s (kept_init hid localDescription) hfirst h
  | false => exact Quiet.run (.inl (mute_init hid localDescription)) h

/-- When the destruction of the queue has begun in such a run, there will be none either. -/
theorem quiet_of_reportedFirst {id : Bytes} {localDescription : DescriptionType × Bytes} {t : List Action}
    {s : State} (h : exec (step C) (init id localDescription) t = some s)
    (hfirst : utf8Valid id = false ∨ Always (step C) ReportedFirst (init id localDescription) t)
    (hgone : s.destroyer.gone .signalingQueueOut = true) : Quiet s := by
  cases hid : utf8Valid id with
  | true =>
      have hfirst := hfirst.resolve_left (by simp [hid])
      have hkept := always_exec (fun s a s' hG hI hst => Kept.step hI hG hst) t _ s
        (kept_init hid localDescription) hfirst h
      exact .inr ⟨hkept.sane, hkept.silent hgone⟩
  | false =>
      exact .inl (exec_invariant (mute_init hid localDescription) (fun s a s' hI hst => Mute.step hI hst) t s h)

/-! ## The report is still owed -/

/-- The destruction of the queue has begun, and the report of `Closed` has not returned. -/
structure Owing (s : State) : Prop where
  sane : Sane s
  gone : s.destroyer.gone .signalingQueueOut = true
  owed : s.reported = false

/-- Only the push itself makes the report return. -/
theorem reported_step {s s' : State} {a : Action} (h : Sane s) (howed : s.reported = false)
    (hst : step C s a = some s') (hpushed : pushed C s a = none) : s'.reported = false := by
  obtain ⟨ph, hph⟩ := h.phase
  obtain ⟨ph', hph', hmoves⟩ := phase_step hph h.dump hst
  rw [hph.reported_eq] at howed
  rw [hph'.reported_eq]
  generalize hcall : s.call a = called at hmoves
  cases hmoves with
  | idle | kept _ => exact howed
  | next hn =>
      cases hn with
      | changed | stolen => rfl
      | reported =>
          have hdump := h.dump (C := C)
          rw [pushed_call hcall, reportMessage, if_pos rfl] at hpushed
          rw [hpushed] at hdump
          exact absurd hdump (by simp)
      | reset => exact absurd howed (by simp [Phase.reported])

theorem Owing.step {s s' : State} {a : Action} (h : Owing s) (hst : step C s a = some s')
    (hshown : latePushes C s a = []) : Owing s' where
  sane := h.sane.step hst
  gone := gone_step hst h.gone
  owed := by
    refine reported_step h.sane h.owed hst ?_
    rw [latePushes, if_pos h.gone] at hshown
    exact Option.toList_eq_nil_iff.mp hshown

/-- **The report that is owed is pushed.** -/
theorem Owing.exists_late_push {s : State} (h : Owing s) :
    ∃ u s', exec (Teardown.step C) s u = some s' ∧ trace (Teardown.step C) (latePushes C) s u ≠ [] :=
  exists_trace_ne_nil State.left (fun _ _ _ hI hst hshown => Owing.step hI hst hshown)
    (fun _ hI => progress hI.sane hI.gone hI.owed) s h

/-- When it is the turn of the queue before the report, the report is owed from then on. -/
theorem owing_of_turn {s s' : State} {rest : List Member} (h : Sane s)
    (hd : s.destroyer = .members (.signalingQueueOut :: rest)) (howed : s.reported = false)
    (hst : step C s .destroyer = some s') : Owing s' where
  sane := h.step hst
  gone := by
    have hnodup := h.rest
    rw [hd] at hnodup
    have hnot := (List.nodup_cons.mp hnodup).1
    simp only [step, stepDestroyer, hd] at hst
    obtain rfl := Option.some.inj hst
    simpa [Destroyer.gone] using hnot
  owed := reported_step h howed hst (by rw [pushed, hd]; rfl)

/-- Along a run without a late push that does not end owing the report, it has always come first. -/
theorem reportedFirst_of_silent : ∀ (t : List Action) (s s' : State), Sane s →
    exec (step C) s t = some s' → trace (step C) (latePushes C) s t = [] → ¬ Owing s' →
    Always (step C) ReportedFirst s t := by
  intro t
  induction t with
  | nil => intro s s' _ _ _ _; trivial
  | cons a t ih =>
      intro s s' hsane h hsilent hnot
      obtain ⟨s₁, hst, hrest⟩ := exec_cons_some.mp h
      rw [trace_cons hst, List.append_eq_nil_iff] at hsilent
      refine ⟨?_, fun s₂ hst₂ => ?_⟩
      · rintro rest rfl hd
        by_contra howed
        rw [Bool.not_eq_true] at howed
        -- owed at this turn, owed at the end
        have howing := owing_of_turn hsane hd howed hst
        exact hnot (silent_exec (fun _ _ _ hI => Owing.step hI) t s₁ s' howing hrest hsilent.2)
      · obtain rfl := Option.some.inj (hst.symm.trans hst₂)
        exact ih s₁ s' (hsane.step hst) hrest hsilent.2 hnot

/-! ## The exact condition -/

/-- **When no callback pushes into the destroyed queue.** Of a run in which the destruction of
    `_signalingQueueOut` has begun: neither the run nor any way to go on contains such a push exactly if the
    report of `Closed` had returned when that destruction began, or the id cannot be written at all. -/
theorem late_push_iff {id : Bytes} {localDescription : DescriptionType × Bytes} {t : List Action} {s : State}
    (h : exec (step C) (init id localDescription) t = some s)
    (hgone : s.destroyer.gone .signalingQueueOut = true) :
    (∀ u s', exec (step C) s u = some s' →
        trace (step C) (latePushes C) (init id localDescription) (t ++ u) = []) ↔
      utf8Valid id = false ∨ Always (step C) ReportedFirst (init id localDescription) t := by
  constructor
  · intro hsilent
    cases hid : utf8Valid id with
    | false => exact .inl rfl
    | true =>
        right
        have hrun := hsilent [] s rfl
        rw [List.append_nil] at hrun
        refine reportedFirst_of_silent t _ s (sane_init hid localDescription) h hrun fun howing => ?_
        obtain ⟨u, s', hu, hlate⟩ := Owing.exists_late_push (C := C) howing
        have hmore := hsilent u s' hu
        rw [trace_append h, List.append_eq_nil_iff] at hmore
        exact hlate hmore.2
  · intro hcond u s' hu
    rw [trace_append h, no_late_push h hcond, List.nil_append]
    exact (quiet_of_reportedFirst h hcond hgone).run hu

/-! ## Two shutdowns -/

/-- A peer with an SCTP transport has connected, and both changes of state have been called back. -/
def connect : List Action :=
  [.event (.stateChange .connecting), .processor, .processor, .event (.sctpTransport true),
    .event (.stateChange .connected), .processor, .processor]

/-- `~Client` as far as the join, with `n` steps in `close`, and the members down to `_signalingQueueOut`. -/
def shutDown (n : Nat) : List Action :=
  .release :: List.replicate (5 + n) .destroyer ++ [.thread .check] ++ List.replicate 5 .destroyer

/-- The condition, to be evaluated. -/
def State.reportedFirst (s : State) : Bool :=
  match s.destroyer with
  | .members (.signalingQueueOut :: _) => s.reported
  | _ => true

theorem reportedFirst_of_eval {s : State} {a : Action} (h : s.reportedFirst = true) : ReportedFirst s a := by
  rintro rest - hd
  simpa [State.reportedFirst, hd] using h

/-- Nobody has connected, and `close` itself reports `Closed`. -/
theorem late_push_iff_unconnected :
    ∃ s ∈ exec (step JsonText.text) (init (str "c") (.offer, [])) (shutDown 6),
      s.destroyer.gone .signalingQueueOut = true ∧
      ∀ u s', exec (step JsonText.text) s u = some s' →
        trace (step JsonText.text) (latePushes JsonText.text) (init (str "c") (.offer, []))
          (shutDown 6 ++ u) = [] := by
  have hrun : ∃ s ∈ exec (step JsonText.text) (init (str "c") (.offer, [])) (shutDown 6),
      s.destroyer.gone .signalingQueueOut = true := by decide +kernel
  obtain ⟨s, hs, hgone⟩ := hrun
  refine ⟨s, hs, hgone, (late_push_iff hs hgone).mpr (.inr ?_)⟩
  exact always_of_check (p := fun s _ => s.reportedFirst) (fun s a h => reportedFirst_of_eval h) _ _
    (by decide +kernel)

/-- A connected peer: `~PeerConnection` reports `Closed`, and the callback pushes into the destroyed queue. -/
theorem closed_pushed_late :
    (exec (step JsonText.text) (init (str "c") (.offer, []))
      (connect ++ shutDown 2 ++ List.replicate 9 .destroyer)).isSome ∧
    trace (step JsonText.text) (latePushes JsonText.text) (init (str "c") (.offer, []))
      (connect ++ shutDown 2 ++ List.replicate 9 .destroyer) =
        (stateChangeMessage JsonText.text (str "c") .closed).toList ∧
    (stateChangeMessage JsonText.text (str "c") .closed).isSome := by
  decide +kernel

end Teardown

end WebrtcStreamer
