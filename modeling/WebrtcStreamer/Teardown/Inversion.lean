import WebrtcStreamer.Teardown.State

/-!
# `Teardown.Inversion` — what a step of the teardown can do

One constructor for each way a step can go; everything that holds along a run is proved from `step_cases`.
-/

namespace WebrtcStreamer

namespace Teardown

open Streamer (Client ClientAction PeerState GatheringState stateChangeMessage gatheringMessage)

variable {C : Codec}

/-! ## `close` and `remoteClose` -/

inductive ClosingStepped (C : Codec) (own : Bool) (s : State) : Closing → State → Closing → Prop
  | again {remote} : s.peerConnection.closing = true →
      ClosingStepped C own s (.exchange remote) s (if remote then .change else .returned)
  | entered {remote} : s.peerConnection.closing = false →
      ClosingStepped C own s (.exchange remote)
        { s with peerConnection := { s.peerConnection with closing := true } } (.transport remote)
  | shutDown : s.peerConnection.sctpTransport = true → ClosingStepped C own s (.transport false) s .returned
  | passed {remote} : s.peerConnection.sctpTransport = false ∨ remote = true →
      ClosingStepped C own s (.transport remote) s .change
  | lost : s.peerConnection.state = .closed → ClosingStepped C own s .change s .returned
  | changed : s.peerConnection.state ≠ .closed →
      ClosingStepped C own s .change
        { s with peerConnection := { s.peerConnection with state := .closed } } .steal
  | stolen : s.processor.inStateChange = false →
      ClosingStepped C own s .steal
        { s with peerConnection := { s.peerConnection with stateChangeCallback := false } }
        (if s.peerConnection.stateChangeCallback then .report else .reset)
  | reported {text q} : stateChangeMessage C s.client.id .closed = some text →
      s.client.signalingQueueOut.tryPush text = some q →
      ClosingStepped C own s .report { s with client := { s.client with signalingQueueOut := q } } .reset
  | threw : stateChangeMessage C s.client.id .closed = none → ClosingStepped C own s .report s .thrown
  | reset : own = true ∨ s.processor.inGathering = false →
      ClosingStepped C own s .reset
        { s with peerConnection := { s.peerConnection with
          gatheringStateChangeCallback := false, sctpTransport := false } } .returned

theorem push_some {s s' : State} {text : Bytes} (h : s.push text = some s') :
    ∃ q, s.client.signalingQueueOut.tryPush text = some q ∧
      s' = { s with client := { s.client with signalingQueueOut := q } } := by
  obtain ⟨q, hq, h⟩ := Option.bind_eq_some_iff.mp h
  exact ⟨q, hq, (Option.some.inj h).symm⟩

theorem stepClosing_cases {own : Bool} {s s' : State} {c c' : Closing}
    (h : stepClosing C own s c = some (s', c')) : ClosingStepped C own s c s' c' := by
  cases c with
  | exchange remote =>
      simp only [stepClosing] at h
      split at h
      · rename_i hc
        obtain ⟨rfl, rfl⟩ := Prod.mk.inj (Option.some.inj h)
        exact .again hc
      · rename_i hc
        obtain ⟨rfl, rfl⟩ := Prod.mk.inj (Option.some.inj h)
        exact .entered (by simpa using hc)
  | transport remote =>
      simp only [stepClosing] at h
      obtain ⟨rfl, rfl⟩ := Prod.mk.inj (Option.some.inj h)
      split
      · rename_i hc
        obtain ⟨hs, hr⟩ := Bool.and_eq_true_iff.mp hc
        obtain rfl : remote = false := by simpa using hr
        exact .shutDown hs
      · rename_i hc
        refine .passed ?_
        cases hr : remote with
        | true => exact .inr rfl
        | false => exact .inl (by simpa [hr] using hc)
  | change =>
      simp only [stepClosing] at h
      split at h
      · rename_i hc
        obtain ⟨rfl, rfl⟩ := Prod.mk.inj (Option.some.inj h)
        exact .lost hc
      · rename_i hc
        obtain ⟨rfl, rfl⟩ := Prod.mk.inj (Option.some.inj h)
        exact .changed hc
  | steal =>
      simp only [stepClosing] at h
      split at h
      · exact absurd h (by simp)
      · rename_i hc
        obtain ⟨rfl, rfl⟩ := Prod.mk.inj (Option.some.inj h)
        exact .stolen (by simpa using hc)
  | report =>
      simp only [stepClosing] at h
      split at h
      · rename_i text htext
        obtain ⟨t, ht, h⟩ := Option.map_eq_some_iff.mp h
        obtain ⟨q, hq, rfl⟩ := push_some ht
        obtain ⟨rfl, rfl⟩ := Prod.mk.inj h
        exact .reported htext hq
      · rename_i hnone
        obtain ⟨rfl, rfl⟩ := Prod.mk.inj (Option.some.inj h)
        exact .threw hnone
  | reset =>
      simp only [stepClosing] at h
      split at h
      · exact absurd h (by simp)
      · rename_i hc
        obtain ⟨rfl, rfl⟩ := Prod.mk.inj (Option.some.inj h)
        refine .reset ?_
        cases own with
        | true => exact .inl rfl
        | false => exact .inr (by simpa using hc)
  | returned | thrown => exact absurd h (by simp [stepClosing])

/-- What `close` and `remoteClose` leave alone. -/
theorem ClosingStepped.frame {own : Bool} {s s' : State} {c c' : Closing} (h : ClosingStepped C own s c s' c') :
    s'.processor = s.processor ∧ s'.destroyer = s.destroyer ∧
      s'.client = { s.client with signalingQueueOut := s'.client.signalingQueueOut } ∧
      s'.client.signalingQueueOut.stopped = s.client.signalingQueueOut.stopped := by
  cases h with
  | reported _ hq => exact ⟨rfl, rfl, rfl, BlockingQueue.stopped_of_tryPush hq⟩
  | again _ | entered _ | shutDown _ | passed _ | lost _ | changed _ | stolen _ | threw _ | reset _ =>
      exact ⟨rfl, rfl, rfl, rfl⟩

/-! ## All steps -/

/-- A call of `close` or `remoteClose` is over. -/
def Closing.over : Closing → Bool
  | .returned | .thrown => true
  | _ => false

inductive DestroyerStepped (C : Codec) (s : State) : State → Prop
  | body {k} : s.destroyer = .body → s.client.lifetime ≠ .close → s.client.lifetime ≠ .join →
      s.client.destroy = some k → DestroyerStepped C s { s with client := k, destroyer := .body }
  | close : s.destroyer = .body → s.client.lifetime = .close →
      DestroyerStepped C s { s with destroyer := .closing (.exchange false) }
  | joined {k} : s.destroyer = .body → s.client.lifetime = .join → s.client.destroy = some k →
      DestroyerStepped C s { s with client := k, destroyer := .members members.reverse }
  | closed {k} : s.destroyer = .closing .returned → s.client.destroy = some k →
      DestroyerStepped C s { s with client := k, destroyer := .body }
  | closing {c s' c'} : s.destroyer = .closing c → ClosingStepped C false s c s' c' →
      DestroyerStepped C s { s' with destroyer := .closing c' }
  | member {m rest} : s.destroyer = .members (m :: rest) → m ≠ .peerConnection →
      DestroyerStepped C s { s with destroyer := .members rest }
  | dropped {rest} : s.destroyer = .members (.peerConnection :: rest) → s.processor.holds = true →
      DestroyerStepped C s { s with destroyer := .members rest }
  | last {rest} : s.destroyer = .members (.peerConnection :: rest) → s.processor.holds = false →
      DestroyerStepped C s { s with destroyer := .releasing (.exchange true) rest }
  | released {c rest} : s.destroyer = .releasing c rest → c.over = true →
      DestroyerStepped C s { s with destroyer := .members rest }
  | releasing {c rest s' c'} : s.destroyer = .releasing c rest → ClosingStepped C false s c s' c' →
      DestroyerStepped C s { s' with destroyer := .releasing c' rest }

inductive ProcessorStepped (C : Codec) (s : State) : State → Prop
  | started {task rest} : s.processor = .idle → s.peerConnection.tasks = task :: rest →
      ProcessorStepped C s { s with
        peerConnection := { s.peerConnection with tasks := rest }
        processor := s.peerConnection.start task }
  | stateChangePushed {state text q} : s.processor = .stateChange state →
      stateChangeMessage C s.client.id state = some text → s.client.signalingQueueOut.tryPush text = some q →
      ProcessorStepped C s { s with client := { s.client with signalingQueueOut := q }, processor := .idle }
  | stateChangeEnded {state} : s.processor = .stateChange state →
      stateChangeMessage C s.client.id state = none → ProcessorStepped C s { s with processor := .idle }
  | gatheringEnded {state} : s.processor = .gathering (.called state) →
      state ≠ .complete ∨ s.destroyer.gone .peerConnection = true →
      ProcessorStepped C s { s with processor := .idle }
  | locked {message} : s.processor = .gathering (.called .complete) →
      s.destroyer.gone .peerConnection = false →
      gatheringMessage C s.client.id s.peerConnection.localDescription.1 s.peerConnection.localDescription.2
        .complete = some message →
      ProcessorStepped C s { s with processor := .gathering (.pushing message) }
  | threw : s.processor = .gathering (.called .complete) → s.destroyer.gone .peerConnection = false →
      gatheringMessage C s.client.id s.peerConnection.localDescription.1 s.peerConnection.localDescription.2
        .complete = none →
      ProcessorStepped C s { s with processor := .gathering .releasing }
  | gatheringPushed {message q} : s.processor = .gathering (.pushing message) →
      s.client.signalingQueueOut.tryPush message = some q →
      ProcessorStepped C s { s with
        client := { s.client with signalingQueueOut := q }, processor := .gathering .releasing }
  | dropped : s.processor = .gathering .releasing → s.destroyer.gone .peerConnection = false →
      ProcessorStepped C s { s with processor := .idle }
  | last : s.processor = .gathering .releasing → s.destroyer.gone .peerConnection = true →
      ProcessorStepped C s { s with processor := .gathering (.destroying (.exchange true)) }
  | destroyed {c} : s.processor = .gathering (.destroying c) → c.over = true →
      ProcessorStepped C s { s with processor := .idle }
  | destroying {c s' c'} : s.processor = .gathering (.destroying c) → ClosingStepped C true s c s' c' →
      ProcessorStepped C s { s' with processor := .gathering (.destroying c') }
  | closed {c} : s.processor = .closing c → c.over = true →
      ProcessorStepped C s { s with processor := .idle }
  | closing {c s' c'} : s.processor = .closing c → ClosingStepped C true s c s' c' →
      ProcessorStepped C s { s' with processor := .closing c' }

inductive Stepped (C : Codec) (s : State) : Action → State → Prop
  | destroyer {s'} : DestroyerStepped C s s' → Stepped C s .destroyer s'
  | processor {s'} : ProcessorStepped C s s' → Stepped C s .processor s'
  | event {e pc} : s.peerConnection.apply e = some pc → Stepped C s (.event e) { s with peerConnection := pc }
  | thread {a k} : ofThread a = true → Streamer.stepClient C s.client a = some (k, none) →
      Stepped C s (.thread a) { s with client := k }
  | signalingSet {message q} : s.client.lifetime = .live →
      s.client.signalingQueueIn.tryPush message = some q →
      Stepped C s (.signalingSet message) { s with client := { s.client with signalingQueueIn := q } }
  | signalingGet {expired r q} : s.client.lifetime = .live →
      s.client.signalingQueueOut.tryPopFor expired = some (r, q) →
      Stepped C s (.signalingGet expired) { s with client := { s.client with signalingQueueOut := q } }
  | release : s.client.lifetime = .live →
      Stepped C s .release { s with client := { s.client with lifetime := .setTerm } }

theorem stepDestroyer_cases {s s' : State} (h : stepDestroyer C s = some s') : DestroyerStepped C s s' := by
  cases hd : s.destroyer with
  | body =>
      simp only [stepDestroyer, hd] at h
      cases hl : s.client.lifetime with
      | live | destroyed =>
          rw [hl] at h
          exact absurd h (by simp)
      | close =>
          rw [hl] at h
          obtain rfl := Option.some.inj h
          exact .close hd hl
      | join =>
          rw [hl] at h
          obtain ⟨k, hk, rfl⟩ := Option.map_eq_some_iff.mp h
          exact .joined hd hl hk
      | setTerm | stopIn | stopOut =>
          rw [hl] at h
          obtain ⟨k, hk, rfl⟩ := Option.map_eq_some_iff.mp h
          exact .body hd (by simp [hl]) (by simp [hl]) hk
  | closing c =>
      simp only [stepDestroyer, hd] at h
      cases c with
      | returned =>
          obtain ⟨k, hk, rfl⟩ := Option.map_eq_some_iff.mp h
          exact .closed hd hk
      | thrown => exact absurd h (by simp)
      | _ =>
          obtain ⟨⟨t, c'⟩, hc, rfl⟩ := Option.map_eq_some_iff.mp h
          exact .closing hd (stepClosing_cases hc)
  | members rest =>
      simp only [stepDestroyer, hd] at h
      cases rest with
      | nil => exact absurd h (by simp)
      | cons m rest =>
          cases m with
          | peerConnection =>
              obtain rfl := Option.some.inj h
              cases hh : s.processor.holds with
              | true => exact .dropped hd hh
              | false => exact .last hd hh
          | _ =>
              obtain rfl := Option.some.inj h
              exact .member hd (by simp)
  | releasing c rest =>
      simp only [stepDestroyer, hd] at h
      cases c with
      | returned | thrown =>
          obtain rfl := Option.some.inj h
          exact .released hd rfl
      | _ =>
          obtain ⟨⟨t, c'⟩, hc, rfl⟩ := Option.map_eq_some_iff.mp h
          exact .releasing hd (stepClosing_cases hc)

theorem stepGathering_cases {s s' : State} {g : Gathering} (hp : s.processor = .gathering g)
    (h : stepGathering C s g = some s') : ProcessorStepped C s s' := by
  cases g with
  | called state =>
      cases state with
      | complete =>
          simp only [stepGathering] at h
          split at h
          · rename_i hg
            obtain rfl := Option.some.inj h
            exact .gatheringEnded hp (.inr hg)
          · rename_i hg
            rw [Bool.not_eq_true] at hg
            split at h
            · rename_i message hm
              obtain rfl := Option.some.inj h
              exact .locked hp hg hm
            · rename_i hm
              obtain rfl := Option.some.inj h
              exact .threw hp hg hm
      | new | inProgress =>
          obtain rfl := Option.some.inj h
          exact .gatheringEnded hp (.inl (by simp))
  | pushing message =>
      obtain ⟨t, ht, rfl⟩ := Option.map_eq_some_iff.mp h
      obtain ⟨q, hq, rfl⟩ := push_some ht
      exact .gatheringPushed hp hq
  | releasing =>
      obtain rfl := Option.some.inj h
      cases hg : s.destroyer.gone .peerConnection with
      | true => exact .last hp hg
      | false => exact .dropped hp hg
  | destroying c =>
      simp only [stepGathering] at h
      cases c with
      | returned | thrown =>
          obtain rfl := Option.some.inj h
          exact .destroyed hp rfl
      | _ =>
          obtain ⟨⟨t, c'⟩, hc, rfl⟩ := Option.map_eq_some_iff.mp h
          exact .destroying hp (stepClosing_cases hc)

theorem stepProcessor_cases {s s' : State} (h : stepProcessor C s = some s') : ProcessorStepped C s s' := by
  cases hp : s.processor with
  | idle =>
      simp only [stepProcessor, hp] at h
      split at h
      · exact absurd h (by simp)
      · rename_i task rest ht
        obtain rfl := Option.some.inj h
        exact .started hp ht
  | stateChange state =>
      simp only [stepProcessor, hp] at h
      split at h
      · rename_i text htext
        obtain ⟨t, ht, rfl⟩ := Option.map_eq_some_iff.mp h
        obtain ⟨q, hq, rfl⟩ := push_some ht
        exact .stateChangePushed hp htext hq
      · rename_i hnone
        obtain rfl := Option.some.inj h
        exact .stateChangeEnded hp hnone
  | gathering g =>
      simp only [stepProcessor, hp] at h
      exact stepGathering_cases hp h
  | closing c =>
      simp only [stepProcessor, hp] at h
      cases c with
      | returned | thrown =>
          obtain rfl := Option.some.inj h
          exact .closed hp rfl
      | _ =>
          obtain ⟨⟨t, c'⟩, hc, rfl⟩ := Option.map_eq_some_iff.mp h
          exact .closing hp (stepClosing_cases hc)

/-- **Inversion of a step.** -/
theorem step_cases {s s' : State} {a : Action} (h : step C s a = some s') : Stepped C s a s' := by
  cases a with
  | destroyer => exact .destroyer (stepDestroyer_cases h)
  | processor => exact .processor (stepProcessor_cases h)
  | event e =>
      obtain ⟨pc, hpc, rfl⟩ := Option.map_eq_some_iff.mp h
      exact .event hpc
  | thread a =>
      simp only [step] at h
      split at h
      · rename_i ha hk
        obtain rfl := Option.some.inj h
        exact .thread ha hk
      · exact absurd h (by simp)
  | signalingSet message =>
      simp only [step] at h
      split at h
      · rename_i hl
        obtain ⟨q, hq, rfl⟩ := Option.map_eq_some_iff.mp h
        exact .signalingSet hl hq
      · exact absurd h (by simp)
  | signalingGet expired =>
      simp only [step] at h
      split at h
      · rename_i hl
        obtain ⟨⟨r, q⟩, hq, rfl⟩ := Option.map_eq_some_iff.mp h
        exact .signalingGet hl hq
      · exact absurd h (by simp)
  | release =>
      simp only [step] at h
      split at h
      · rename_i hl
        obtain rfl := Option.some.inj h
        exact .release hl
      · exact absurd h (by simp)

/-! ## What a step leaves alone -/

/-- The processor touches nothing of the client but the queue, which it neither stops nor starts. -/
theorem ProcessorStepped.frame {s s' : State} (h : ProcessorStepped C s s') :
    s'.destroyer = s.destroyer ∧
      s'.client = { s.client with signalingQueueOut := s'.client.signalingQueueOut } ∧
      s'.client.signalingQueueOut.stopped = s.client.signalingQueueOut.stopped := by
  cases h with
  | started _ _ | stateChangeEnded _ _ | gatheringEnded _ _ | locked _ _ _ | threw _ _ _ | dropped _ _
  | last _ _ | destroyed _ _ | closed _ _ => exact ⟨rfl, rfl, rfl⟩
  | stateChangePushed _ _ hq | gatheringPushed _ hq => exact ⟨rfl, rfl, BlockingQueue.stopped_of_tryPush hq⟩
  | destroying _ hc | closing _ hc => exact hc.frame.2

/-- Only the thread in `~Client` moves in `~Client`. -/
theorem destroyer_eq {s s' : State} {a : Action} (h : step C s a = some s') (ha : a ≠ .destroyer) :
    s'.destroyer = s.destroyer := by
  cases step_cases h with
  | destroyer _ => exact absurd rfl ha
  | processor hst => exact hst.frame.1
  | event _ | thread _ _ | signalingSet _ _ | signalingGet _ _ | release _ => rfl

end Teardown

end WebrtcStreamer
