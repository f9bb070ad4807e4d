import WebrtcStreamer.Lib.JsonText
import WebrtcStreamer.Teardown.Silence

/-!
# `Teardown.Progress` — the report that is owed is made

Once `~Client` is past its body, the queue has been stopped and no push waits. While the report of `Closed`
has not returned, one of the two threads is on the way to it: the one that has made the change, the one in
`~PeerConnection`, or the one that still has `_peerConnection` or the last `pc` to drop. `progress` says that
it can go on, and that this ends.
-/

namespace WebrtcStreamer

namespace Teardown

open Streamer (Client DescriptionType stateChangeMessage disconnectMessage)
open Transition

variable {C : Codec}

/-! ## The queue has been stopped -/

/-- `~Client` has stopped `_signalingQueueOut`. -/
def outStopped : Streamer.Lifetime → Bool
  | .close | .join | .destroyed => true
  | _ => false

/-- `~Client` is past its body. -/
def Destroyer.pastBody : Destroyer → Bool
  | .members _ | .releasing _ _ => true
  | .body | .closing _ => false

/-- How the client's `lifetime` follows the thread in `~Client`, and what has been stopped. -/
structure State.Orderly (s : State) : Prop where
  stopped : outStopped s.client.lifetime = true → s.client.signalingQueueOut.stopped = true
  closing : ∀ c, s.destroyer = .closing c → s.client.lifetime = .close
  pastBody : s.destroyer.pastBody = true ↔ s.client.lifetime = .destroyed

theorem orderly_init (id : Bytes) (localDescription : DescriptionType × Bytes) :
    (init id localDescription).Orderly where
  stopped := fun h => absurd h (by simp [init, Client.new, outStopped])
  closing := fun c h => absurd h (by simp [init])
  pastBody := by simp [init, Client.new, Destroyer.pastBody]

theorem destroy_lifetime {k k' : Client} (h : k.destroy = some k')
    (hk : outStopped k.lifetime = true → k.signalingQueueOut.stopped = true) :
    (outStopped k'.lifetime = true → k'.signalingQueueOut.stopped = true) ∧
      (k'.lifetime = .destroyed ↔ k.lifetime = .join) := by
  cases Streamer.destroy_stepped h with
  | termSet hl | inStopped hl => exact ⟨fun ho => absurd ho (by simp [outStopped]), by simp [hl]⟩
  | outStopped hl => exact ⟨fun _ => rfl, by simp [hl]⟩
  | closed hl | joined hl _ =>
      rw [hl] at hk
      exact ⟨fun _ => hk rfl, by simp [hl]⟩

/-- A push of a callback, or no change of the client at all. -/
theorem State.Orderly.queue {s s' : State} (h : s.Orderly)
    (hclient : s'.client = { s.client with signalingQueueOut := s'.client.signalingQueueOut })
    (hstopped : s'.client.signalingQueueOut.stopped = s.client.signalingQueueOut.stopped)
    (hclosing : ∀ c, s'.destroyer = .closing c → s.client.lifetime = .close)
    (hpast : s'.destroyer.pastBody = s.destroyer.pastBody) : s'.Orderly := by
  have hl : s'.client.lifetime = s.client.lifetime := by rw [hclient]
  refine ⟨fun ho => hstopped.trans (h.stopped (hl ▸ ho)), fun c hc => hl.trans (hclosing c hc), ?_⟩
  rw [hpast, hl]
  exact h.pastBody

theorem orderly_step {s s' : State} {a : Action} (h : s.Orderly) (hst : step C s a = some s') :
    s'.Orderly := by
  cases step_cases hst with
  | destroyer hst =>
      cases hst with
      | body _ _ hjoin hk =>
          obtain ⟨hstopped, hlife⟩ := destroy_lifetime hk h.stopped
          refine ⟨hstopped, fun c hc => absurd hc (by simp), ?_⟩
          simp [Destroyer.pastBody, hlife, hjoin]
      | closed hd hk =>
          obtain ⟨hstopped, hlife⟩ := destroy_lifetime hk h.stopped
          refine ⟨hstopped, fun c hc => absurd hc (by simp), ?_⟩
          simp [Destroyer.pastBody, hlife, h.closing _ hd]
      | joined _ hl hk =>
          obtain ⟨hstopped, hlife⟩ := destroy_lifetime hk h.stopped
          exact ⟨hstopped, fun c hc => absurd hc (by simp), by simp [Destroyer.pastBody, hlife, hl]⟩
      | close hd hl => exact ⟨h.stopped, fun _ _ => hl, by simp [Destroyer.pastBody, hl]⟩
      | member hd _ | dropped hd _ | last hd _ | released hd _ =>
          have hpast := h.pastBody
          rw [hd] at hpast
          exact ⟨h.stopped, fun c hc => absurd hc (by simp), hpast⟩
      | closing hd hc =>
          obtain ⟨-, -, hclient, hstopped⟩ := hc.frame
          exact h.queue hclient hstopped (fun _ _ => h.closing _ hd) (by rw [hd]; rfl)
      | releasing hd hc =>
          obtain ⟨-, -, hclient, hstopped⟩ := hc.frame
          exact h.queue hclient hstopped (fun c hc => absurd hc (by simp)) (by rw [hd]; rfl)
  | processor hst =>
      obtain ⟨hd, hclient, hstopped⟩ := hst.frame
      exact h.queue hclient hstopped (fun c hc => h.closing c (hd ▸ hc)) (by rw [hd])
  | event _ => exact ⟨h.stopped, h.closing, h.pastBody⟩
  | thread ha hk =>
      obtain ⟨-, hq, hl⟩ := thread_frame ha hk
      exact ⟨fun ho => by rw [hq]; exact h.stopped (hl ▸ ho), fun c hc => hl.trans (h.closing c hc),
        by rw [hl]; exact h.pastBody⟩
  | signalingSet hl _ | signalingGet hl _ =>
      exact ⟨fun ho => absurd ho (by simp [outStopped, hl]), h.closing, h.pastBody⟩
  | release hl =>
      have hclosing : ∀ c, s.destroyer ≠ .closing c := fun c hc =>
        absurd (hl.symm.trans (h.closing c hc)) (by simp)
      have hpast : ¬ s.destroyer.pastBody = true := fun hp =>
        absurd (hl.symm.trans (h.pastBody.mp hp)) (by simp)
      exact ⟨fun ho => absurd ho (by simp [outStopped]), fun c hc => absurd hc (hclosing c), by simp [hpast]⟩

/-! ## Who owes the report -/

/-- A call that goes on to the change to `Closed`; `close` by itself need not. -/
def Closing.owes : Closing → Bool
  | .exchange true | .transport true | .change => true
  | _ => false

def Destroyer.owes : Destroyer → Bool
  | .releasing c _ => c.owes
  | _ => false

/-- Whoever holds the last `pc` ends in `~PeerConnection`. -/
def Processor.owes : Processor → Bool
  | .gathering (.pushing _) | .gathering .releasing => true
  | .gathering (.destroying c) => c.owes
  | _ => false

/-- When `_peerConnection` is gone and `Closed` is not reached, one of the two threads is on the way there. -/
def State.Due (s : State) : Prop :=
  s.destroyer.gone .peerConnection = true → s.peerConnection.state ≠ .closed →
    s.destroyer.owes = true ∨ s.processor.owes = true

theorem ClosingStepped.owes {own : Bool} {s s' : State} {c c' : Closing} (h : ClosingStepped C own s c s' c')
    (hopen : s'.peerConnection.state ≠ .closed) :
    s.peerConnection.state ≠ .closed ∧ (c.owes = true → c'.owes = true) := by
  cases h with
  | @again remote _ => exact ⟨hopen, fun ho => by cases remote <;> exact ho⟩
  | @entered remote _ => exact ⟨hopen, fun ho => by cases remote <;> exact ho⟩
  | passed _ => exact ⟨hopen, fun _ => rfl⟩
  | shutDown _ | stolen _ | reported _ _ | threw _ | reset _ =>
      exact ⟨hopen, fun ho => absurd ho (by simp [Closing.owes])⟩
  | lost hclosed => exact absurd hclosed hopen
  | changed _ => exact absurd rfl hopen

theorem Closing.owes_over {c : Closing} (h : c.over = true) : c.owes = false := by
  cases c with
  | returned | thrown => rfl
  | exchange _ | transport _ | change | steal | report | reset => exact absurd h (by simp [Closing.over])

theorem due_step {s s' : State} {a : Action} (h : s.Due) (hst : step C s a = some s') : s'.Due := by
  intro hgone hopen
  cases step_cases hst with
  | destroyer hst =>
      cases hst with
      | body _ _ _ _ | close _ _ | closed _ _ | closing _ _ => exact absurd hgone (by simp [Destroyer.gone])
      | joined _ _ _ => exact absurd hgone (by simp [Destroyer.gone, mem_members])
      | @member m rest hd hm =>
          refine (h ?_ hopen).imp_left fun ho => absurd ho (by simp [hd, Destroyer.owes])
          rw [hd]
          simpa [Destroyer.gone, Ne.symm hm] using hgone
      | dropped _ hholds =>
          right
          show s.processor.owes = true
          cases hp : s.processor with
          | gathering g =>
              rw [hp] at hholds
              cases g with
              | pushing message | releasing => rfl
              | called _ | destroying _ => exact absurd hholds (by simp [Processor.holds])
          | idle | stateChange _ | closing _ =>
              rw [hp] at hholds
              exact absurd hholds (by simp [Processor.holds])
      | last _ _ => exact .inl rfl
      | @released c rest hd hover =>
          refine (h ?_ hopen).imp_left fun ho => absurd ho ?_
          · rw [hd]
            exact hgone
          · simp [hd, Destroyer.owes, Closing.owes_over hover]
      | releasing hd hc =>
          obtain ⟨hopen', howes⟩ := hc.owes hopen
          refine (h ?_ hopen').imp (fun ho => howes ?_) (fun ho => ?_)
          · rw [hd]
            exact hgone
          · rw [hd] at ho
            exact ho
          · rw [← hc.frame.1] at ho
            exact ho
  | processor hst =>
      cases hst with
      | started hp _ | stateChangePushed hp _ _ | stateChangeEnded hp _ | gatheringEnded hp _ =>
          exact (h hgone hopen).imp_right fun ho => absurd ho (by simp [hp, Processor.owes])
      | locked _ _ _ | threw _ _ _ | gatheringPushed _ _ | last _ _ => exact .inr rfl
      | dropped _ hkept => exact absurd (hkept.symm.trans hgone) (by simp)
      | @destroyed c hp hover =>
          refine (h hgone hopen).imp_right fun ho => absurd ho ?_
          simp [hp, Processor.owes, Closing.owes_over hover]
      | closed hp _ => exact (h hgone hopen).imp_right fun ho => absurd ho (by simp [hp, Processor.owes])
      | destroying hp hc =>
          obtain ⟨hopen', howes⟩ := hc.owes hopen
          have hd := hc.frame.2.1
          refine (h (hd ▸ hgone) hopen').imp (fun ho => hd ▸ ho) (fun ho => howes ?_)
          rw [hp] at ho
          exact ho
      | closing hp hc =>
          obtain ⟨hopen', -⟩ := hc.owes hopen
          have hd := hc.frame.2.1
          refine (h (hd ▸ hgone) hopen').imp (fun ho => hd ▸ ho) fun ho => ?_
          exact absurd ho (by simp [hp, Processor.owes])
  | event he =>
      obtain ⟨hstate, -, -⟩ := apply_frame he
      exact h hgone fun hclosed => hopen (hstate.mpr hclosed)
  | thread _ _ | signalingSet _ _ | signalingGet _ _ | release _ => exact h hgone hopen

/-! ## The invariant -/

/-- What `~Client` has still to destroy. -/
def Destroyer.rest : Destroyer → List Member
  | .members rest | .releasing _ rest => rest
  | .body | .closing _ => []

theorem rest_step {s s' : State} {a : Action} (h : s.destroyer.rest.Nodup) (hst : step C s a = some s') :
    s'.destroyer.rest.Nodup := by
  by_cases ha : a = .destroyer
  · subst ha
    cases step_cases hst with
    | destroyer hst =>
        cases hst with
        | body _ _ _ _ | close _ _ | closed _ _ | closing _ _ => exact List.nodup_nil
        | joined _ _ _ => exact show members.reverse.Nodup by decide
        | member hd _ | dropped hd _ | last hd _ =>
            rw [hd] at h
            exact (List.nodup_cons.mp h).2
        | released hd _ | releasing hd _ =>
            rw [hd] at h
            exact h
  · rw [destroyer_eq hst ha]
    exact h

/-- With a valid id the report can be written. -/
theorem closedMessage_isSome (id : Bytes) :
    (stateChangeMessage C id .closed).isSome ↔ utf8Valid id = true := by
  refine (C.dump_isSome (Streamer.wf_disconnectMessage _ id)).trans ?_
  simp only [disconnectMessage, Json.utf8, Json.utf8Members, and_true]
  constructor
  · rintro ⟨-, hid, -⟩
    exact hid
  · intro hid
    exact ⟨by decide, hid, by decide, by decide, by decide, by decide⟩

structure Sane (s : State) : Prop where
  valid : utf8Valid s.client.id = true
  phase : ∃ ph, s.InPhase ph
  calling : s.Calling
  orderly : s.Orderly
  due : s.Due
  rest : s.destroyer.rest.Nodup

theorem Sane.dump {s : State} (h : Sane s) : (stateChangeMessage C s.client.id .closed).isSome :=
  (closedMessage_isSome s.client.id).mpr h.valid

theorem sane_init {id : Bytes} (hid : utf8Valid id = true) (localDescription : DescriptionType × Bytes) :
    Sane (init id localDescription) where
  valid := hid
  phase := ⟨.before, inPhase_init id localDescription⟩
  calling := calling_init id localDescription
  orderly := orderly_init id localDescription
  due := fun hgone => absurd hgone (by simp [init, Destroyer.gone])
  rest := List.nodup_nil

theorem Sane.step {s s' : State} {a : Action} (h : Sane s) (hst : step C s a = some s') : Sane s' where
  valid := by rw [id_step hst]; exact h.valid
  phase := by
    obtain ⟨ph, hph⟩ := h.phase
    obtain ⟨ph', hph', -⟩ := phase_step hph h.dump hst
    exact ⟨ph', hph'⟩
  calling := calling_step h.calling hst
  orderly := orderly_step h.orderly hst
  due := due_step h.due hst
  rest := rest_step h.rest hst

/-! ## Delivered exactly once -/

variable (C) in
/-- The calls of the state-change callback with `Closed`. -/
def closedReports (s : State) (a : Action) : List Bytes :=
  if s.call a = some .report then (stateChangeMessage C s.client.id .closed).toList else []

/-- Until it returns the report is still to be made, afterwards it is not made again. -/
theorem closedReports_spend {s s' : State} {a : Action} (h : Sane s) (hst : step C s a = some s') :
    (closedReports C s a).length + (if s'.reported then 0 else 1) = if s.reported then 0 else 1 := by
  obtain ⟨ph, hph⟩ := h.phase
  obtain ⟨ph', hph', hmoves⟩ := phase_step hph h.dump hst
  obtain ⟨text, htext⟩ := Option.isSome_iff_exists.mp (h.dump (C := C))
  rw [hph.reported_eq, hph'.reported_eq]
  unfold closedReports
  rw [htext]
  generalize s.call a = called at hmoves ⊢
  cases hmoves with
  | idle => exact Nat.zero_add _
  | @kept c hwon =>
      have hne : c ≠ .report := by
        rintro rfl
        exact absurd hwon (by decide)
      rw [if_neg (by simpa using hne)]
      exact Nat.zero_add _
  | next hn => cases hn <;> rfl

/-- **The report is made exactly once**: not before, and not again after it has returned. -/
theorem closed_once {id : Bytes} (hid : utf8Valid id = true) {localDescription : DescriptionType × Bytes}
    {t : List Action} {s : State} (h : exec (step C) (init id localDescription) t = some s) :
    (trace (step C) (closedReports C) (init id localDescription) t).length = if s.reported then 1 else 0 := by
  have hsum := length_trace_add_eq (μ := fun s : State => if s.reported then 0 else 1)
    (fun _ _ _ hI hst => Sane.step hI hst) (fun _ _ _ hI hst => closedReports_spend hI hst) t _ s
    (sane_init hid localDescription) h
  have hinit : (init id localDescription).reported = false := rfl
  rw [hinit] at hsum
  cases hs : s.reported <;> simpa [hs] using hsum

/-- Nobody has connected, and `~Client` calls `close`. -/
theorem closed_once_unconnected :
    (trace (step JsonText.text) (closedReports JsonText.text) (init (str "c") (.offer, []))
      (.release :: List.replicate 11 .destroyer)).length = 1 := by
  have hrun : ((exec (step JsonText.text) (init (str "c") (.offer, []))
      (.release :: List.replicate 11 .destroyer)).any State.reported) = true := by
    decide +kernel
  obtain ⟨s, hs, hreported⟩ := (Option.any_eq_true _ _).mp hrun
  rw [closed_once (by decide) hs, if_pos hreported]

/-- **And it is made at the latest with `_peerConnection`**: when everything is destroyed and no callback is
    under way, it has returned. -/
theorem Sane.reported_of_finished {s : State} (h : Sane s) (hd : s.destroyer = .members [])
    (hp : s.processor = .idle) : s.reported = true := by
  have hclosed : s.peerConnection.state = .closed := by
    by_contra hopen
    rcases h.due (by rw [hd]; rfl) hopen with ho | ho
    · exact absurd ho (by simp [hd, Destroyer.owes])
    · exact absurd ho (by simp [hp, Processor.owes])
  simp [State.reported, hclosed, hd, hp, Destroyer.call, Processor.call]

/-- What has been reported stays so. -/
theorem reported_stays {s s' : State} {a : Action} (h : Sane s) (hrep : s.reported = true)
    (hst : step C s a = some s') : s'.reported = true := by
  obtain ⟨ph, hph⟩ := h.phase
  obtain ⟨ph', hph', hmoves⟩ := phase_step hph h.dump hst
  rw [hph.reported_eq] at hrep
  rw [hph'.reported_eq]
  exact hmoves.reported hrep

/-- `close` called by `~Client` is where the report is made, or the report has returned. -/
def ReportsItself (s : State) : Prop := (∃ c, s.destroyer = .closing c ∧ c.won = true) ∨ s.reported = true

theorem ReportsItself.step {s s' : State} {a : Action} (h : ReportsItself s) (hs : Sane s)
    (hst : step C s a = some s') : ReportsItself s' := by
  rcases h with ⟨c, hd, hwon⟩ | hrep
  · by_cases ha : a = .destroyer
    · subst ha
      have hdump := hs.dump (C := C)
      obtain ⟨ph, hph⟩ := hs.phase
      obtain ⟨ph', hph', hmoves⟩ := phase_step hph hdump hst
      have hcall : s.call .destroyer = some c := congrArg Destroyer.call hd
      rw [hcall] at hmoves
      simp only [Teardown.step, stepDestroyer, hd] at hst
      cases c with
      | exchange _ | transport _ | change | returned | thrown => exact absurd hwon (by simp [Closing.won])
      | steal =>
          obtain ⟨⟨s₁, c'⟩, hc, rfl⟩ := Option.map_eq_some_iff.mp hst
          cases stepClosing_cases hc with
          | stolen _ => exact .inl ⟨_, rfl, by split <;> rfl⟩
      | report =>
          obtain ⟨⟨s₁, c'⟩, hc, rfl⟩ := Option.map_eq_some_iff.mp hst
          cases stepClosing_cases hc with
          | reported _ _ => exact .inl ⟨.reset, rfl, rfl⟩
          | threw hnone =>
              rw [hnone] at hdump
              exact absurd hdump (by simp)
      | reset =>
          -- the last stage is reached, and the call returns
          right
          rw [hph'.reported_eq]
          cases hmoves with
          | kept hno => exact absurd hno (by decide)
          | next hn =>
              cases hn
              rfl
    · exact .inl ⟨c, (destroyer_eq hst ha).trans hd, hwon⟩
  · exact .inr (reported_stays hs hrep hst)

/-- **A `close` that makes the change itself is safe**: when it has returned, so has the report. -/
theorem reported_of_close {s s' : State} {t : List Action} {c : Closing} (hs : Sane s)
    (hd : s.destroyer = .closing c) (hwon : c.won = true) (h : exec (step C) s t = some s')
    (hleft : ∀ d, s'.destroyer ≠ .closing d) : s'.reported = true := by
  have hrun := exec_invariant (I := fun s => Sane s ∧ ReportsItself s) ⟨hs, .inl ⟨c, hd, hwon⟩⟩
    (fun s a s' hI hst => ⟨hI.1.step hst, hI.2.step hI.1 hst⟩) t s' h
  exact hrun.2.resolve_left fun hclosing => hleft _ hclosing.choose_spec.1

/-! ## Progress -/

/-- How many steps a call has left at most. -/
def Closing.left : Closing → Nat
  | .exchange _ => 7
  | .transport _ => 6
  | .change => 5
  | .steal => 4
  | .report => 3
  | .reset => 2
  | .returned | .thrown => 1

def Processor.left : Processor → Nat
  | .idle => 0
  | .stateChange _ => 1
  | .gathering (.called _) => 10
  | .gathering (.pushing _) => 9
  | .gathering .releasing => 8
  | .gathering (.destroying c) | .closing c => c.left

def Destroyer.left : Destroyer → Nat
  | .body | .closing _ => 0
  | .members rest => 8 * rest.length
  | .releasing c rest => 8 * rest.length + c.left

/-- The steps left to the processor, short of another task, and to `~Client`. -/
def State.left (s : State) : Nat := s.processor.left + s.destroyer.left

theorem ClosingStepped.left {own : Bool} {s s' : State} {c c' : Closing} (h : ClosingStepped C own s c s' c') :
    c'.left < c.left := by
  cases h with
  | @again remote _ => cases remote <;> decide
  | stolen _ => split <;> decide
  | entered _ | shutDown _ | passed _ | lost _ | changed _ | reported _ _ | threw _ | reset _ =>
      simp [Closing.left]

theorem Closing.left_pos (c : Closing) : 0 < c.left := by
  cases c <;> simp [Closing.left]

/-- A task under way comes nearer to its end. -/
theorem ProcessorStepped.left {s s' : State} (h : ProcessorStepped C s s') (hbusy : s.processor ≠ .idle) :
    s'.processor.left < s.processor.left := by
  cases h with
  | started hp _ => exact absurd hp hbusy
  | stateChangePushed hp _ _ | stateChangeEnded hp _ | gatheringEnded hp _ | locked hp _ _ | threw hp _ _
  | gatheringPushed hp _ | dropped hp _ | last hp _ =>
      rw [hp]
      simp [Processor.left, Closing.left]
  | destroyed hp _ | closed hp _ =>
      rw [hp]
      exact Closing.left_pos _
  | destroying hp hc | closing hp hc =>
      rw [hp]
      exact hc.left

/-- Past its body, `~Client` comes nearer to its end. -/
theorem DestroyerStepped.left {s s' : State} (h : DestroyerStepped C s s')
    (hpast : s.destroyer.pastBody = true) :
    s'.processor = s.processor ∧ s'.destroyer.left < s.destroyer.left := by
  cases h with
  | body hd _ _ _ | close hd _ | joined hd _ _ | closed hd _ | closing hd _ =>
      rw [hd] at hpast
      exact absurd hpast (by simp [Destroyer.pastBody])
  | member hd _ | dropped hd _ | last hd _ =>
      rw [hd]
      refine ⟨rfl, ?_⟩
      simp only [Destroyer.left, Closing.left, List.length_cons]
      omega
  | @released c rest hd _ =>
      rw [hd]
      exact ⟨rfl, Nat.lt_add_of_pos_right c.left_pos⟩
  | releasing hd hc =>
      rw [hd]
      exact ⟨hc.frame.1, Nat.add_lt_add_left hc.left _⟩

/-- Into a stopped queue every push goes through. -/
theorem push_isSome {s : State} (h : s.client.signalingQueueOut.stopped = true) (text : Bytes) :
    (s.push text).isSome := by
  obtain ⟨q, hq⟩ := Option.isSome_iff_exists.mp (BlockingQueue.tryPush_of_stopped h text)
  simp [State.push, hq]

theorem stepClosing_isSome {own : Bool} {s : State} {c : Closing} (hover : c.over = false)
    (hstopped : s.client.signalingQueueOut.stopped = true) (hsteal : s.processor.inStateChange = false)
    (hreset : own = true ∨ s.processor.inGathering = false) : (stepClosing C own s c).isSome := by
  cases c with
  | exchange remote | change =>
      unfold stepClosing
      dsimp only
      split <;> rfl
  | transport remote => rfl
  | steal => simp [stepClosing, hsteal]
  | report =>
      unfold stepClosing
      dsimp only
      split
      · rw [Option.isSome_map]
        exact push_isSome hstopped _
      · rfl
  | reset =>
      rcases hreset with rfl | hfree
      · rfl
      · simp [stepClosing, hfree]
  | returned | thrown => exact absurd hover (by simp [Closing.over])

theorem stepProcessor_isSome {s : State} (hbusy : s.processor ≠ .idle)
    (hstopped : s.client.signalingQueueOut.stopped = true) : (stepProcessor C s).isSome := by
  have hclosing : ∀ {c : Closing}, c.over = false → s.processor.inStateChange = false →
      (stepClosing C true s c).isSome :=
    fun hover hsteal => stepClosing_isSome hover hstopped hsteal (.inl rfl)
  cases hp : s.processor with
  | idle => exact absurd hp hbusy
  | stateChange state =>
      simp only [stepProcessor, hp]
      split
      · rw [Option.isSome_map]
        exact push_isSome hstopped _
      · rfl
  | gathering g =>
      simp only [stepProcessor, hp]
      cases g with
      | called state =>
          cases state with
          | complete =>
              simp only [stepGathering]
              split
              · rfl
              · split <;> rfl
          | new | inProgress => rfl
      | pushing message =>
          simp only [stepGathering, Option.isSome_map]
          exact push_isSome hstopped message
      | releasing => rfl
      | destroying c =>
          cases c with
          | returned | thrown => rfl
          | exchange _ | transport _ | change | steal | report | reset =>
              simp only [stepGathering, Option.isSome_map]
              exact hclosing rfl (by rw [hp]; rfl)
  | closing c =>
      simp only [stepProcessor, hp]
      cases c with
      | returned | thrown => rfl
      | exchange _ | transport _ | change | steal | report | reset =>
          simp only [Option.isSome_map]
          exact hclosing rfl (by rw [hp]; rfl)

theorem stepDestroyer_isSome {s : State} (hidle : s.processor = .idle)
    (hstopped : s.client.signalingQueueOut.stopped = true) (hpast : s.destroyer.pastBody = true)
    (hrest : s.destroyer ≠ .members []) : (stepDestroyer C s).isSome := by
  cases hd : s.destroyer with
  | body | closing c =>
      rw [hd] at hpast
      exact absurd hpast (by simp [Destroyer.pastBody])
  | members rest =>
      simp only [stepDestroyer, hd]
      cases rest with
      | nil => exact absurd hd hrest
      | cons m rest => cases m <;> rfl
  | releasing c rest =>
      simp only [stepDestroyer, hd]
      cases c with
      | returned | thrown => rfl
      | exchange _ | transport _ | change | steal | report | reset =>
          simp only [Option.isSome_map]
          exact stepClosing_isSome rfl hstopped (by rw [hidle]; rfl) (.inr (by rw [hidle]; rfl))

/-- A member that is being destroyed has its turn after the body. -/
theorem pastBody_of_gone {d : Destroyer} {m : Member} (h : d.gone m = true) : d.pastBody = true := by
  cases d with
  | members rest | releasing c rest => rfl
  | body | closing c => exact absurd h (by simp [Destroyer.gone])

/-- **Something is left to do** while the report is owed, and one of the two threads can do it. -/
theorem progress {s : State} (h : Sane s) {m : Member} (hgone : s.destroyer.gone m = true)
    (howed : s.reported = false) : ∃ a s', step C s a = some s' ∧ s'.left < s.left := by
  have hpast := pastBody_of_gone hgone
  have hstopped : s.client.signalingQueueOut.stopped = true :=
    h.orderly.stopped (by rw [h.orderly.pastBody.mp hpast]; rfl)
  by_cases hidle : s.processor = .idle
  · have hrest : s.destroyer ≠ .members [] := by
      intro hd
      -- nobody is left to report, so it has been done
      exact absurd (howed.symm.trans (h.reported_of_finished hd hidle)) (by simp)
    obtain ⟨s', hst⟩ := Option.isSome_iff_exists.mp (stepDestroyer_isSome (C := C) hidle hstopped hpast hrest)
    obtain ⟨hp, hlt⟩ := (stepDestroyer_cases hst).left hpast
    refine ⟨.destroyer, s', hst, ?_⟩
    unfold State.left
    rw [hp]
    exact Nat.add_lt_add_left hlt _
  · obtain ⟨s', hst⟩ := Option.isSome_iff_exists.mp (stepProcessor_isSome (C := C) hidle hstopped)
    have hlt := (stepProcessor_cases hst).left hidle
    obtain ⟨hd, -⟩ := (stepProcessor_cases hst).frame
    refine ⟨.processor, s', hst, ?_⟩
    unfold State.left
    rw [hd]
    exact Nat.add_lt_add_right hlt _

end Teardown

end WebrtcStreamer
