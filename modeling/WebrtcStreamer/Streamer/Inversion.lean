import WebrtcStreamer.Streamer.Step

/-!
# `Streamer.Inversion` — what each thread's step requires and does

One inductive relation for each thread, with a constructor for each way through its step function, and the
lemma that every step is one of them. For the threads that an argument is not about, the `_frame` lemmas
say which fields they can touch at all.
-/

namespace WebrtcStreamer

namespace Streamer

open BlockingQueue

variable {ι : Type} {C : Codec}

/-! ## The `onMessage` callback -/

inductive OnMessageStepped (C : Codec) (s : State ι) : OnMessageAction ι → State ι → Prop
  | dropped {tag data} : s.onMessage = .idle → (∀ text, ¬ Inbound C data text) →
      OnMessageStepped C s (.receive tag data) s
  | received {tag data text} : s.onMessage = .idle → Inbound C data text →
      OnMessageStepped C s (.receive tag data)
        { s with onMessage := .pushing { text := text, source := .inbound tag data } }
  | pushed {item q} : s.onMessage = .pushing item → s.signalingQueue.tryPush item = some q →
      OnMessageStepped C s .push { s with signalingQueue := q, onMessage := .idle }

theorem stepOnMessage_cases {s s' : State ι} {a : OnMessageAction ι} (h : stepOnMessage C s a = some s') :
    OnMessageStepped C s a s' := by
  cases a with
  | receive tag data =>
      simp only [stepOnMessage] at h
      split at h
      · rename_i hpc
        split at h
        · rename_i text hm
          obtain rfl := Option.some.inj h
          exact .received hpc hm
        · rename_i hm
          obtain rfl := Option.some.inj h
          refine .dropped hpc fun text ht => ?_
          exact absurd (hm.symm.trans ht) (by simp)
        · rename_i e hm
          obtain rfl := Option.some.inj h
          refine .dropped hpc fun text ht => ?_
          exact absurd (hm.symm.trans ht) (by simp)
      · exact absurd h (by simp)
  | push =>
      simp only [stepOnMessage] at h
      split at h
      · rename_i item hpc
        obtain ⟨q, hq, h⟩ := Option.bind_eq_some_iff.mp h
        obtain rfl := Option.some.inj h
        exact .pushed hpc hq
      · exact absurd h (by simp)

/-! ## The collector -/

inductive CollectorStepped (s : State ι) : CollectorAction → State ι → Prop
  | checked : s.collector = .top →
      CollectorStepped s .check { s with collector := if s.doTerm then .done else .locking }
  | locked {order} : s.collector = .locking → s.loop.exclusiveHeld = false →
      order.Perm s.clientsMap.entries → CollectorStepped s (.lock order) { s with collector := .walking order }
  | got {expired e rest client text q} : s.collector = .walking (e :: rest) → s.clients[e.2]? = some client →
      client.signalingQueueOut.tryPopFor expired = some (some text, q) →
      CollectorStepped s (.get expired)
        { s with
          clients := s.clients.set e.2 { client with signalingQueueOut := q }
          collector := .holding { text := text, source := .client e.2 } rest }
  | passed {expired e rest client q} : s.collector = .walking (e :: rest) → s.clients[e.2]? = some client →
      client.signalingQueueOut.tryPopFor expired = some (none, q) →
      CollectorStepped s (.get expired) { s with collector := .walking rest }
  | pushed {item rest q} : s.collector = .holding item rest → s.signalingQueue.tryPush item = some q →
      CollectorStepped s .push { s with signalingQueue := q, collector := .walking rest }
  | unlocked : s.collector = .walking [] → CollectorStepped s .unlock { s with collector := .top }

theorem stepCollector_cases {s s' : State ι} {a : CollectorAction} (h : stepCollector s a = some s') :
    CollectorStepped s a s' := by
  cases a with
  | check =>
      simp only [stepCollector] at h
      split at h
      · rename_i hpc
        obtain rfl := Option.some.inj h
        exact .checked hpc
      · exact absurd h (by simp)
  | lock order =>
      simp only [stepCollector] at h
      split at h
      · rename_i hpc
        split at h
        · rename_i hg
          obtain rfl := Option.some.inj h
          exact .locked hpc hg.1 hg.2
        · exact absurd h (by simp)
      · exact absurd h (by simp)
  | get expired =>
      simp only [stepCollector] at h
      split at h
      · rename_i e rest hpc
        obtain ⟨client, hc, h⟩ := Option.bind_eq_some_iff.mp h
        obtain ⟨⟨r, q⟩, hq, h⟩ := Option.bind_eq_some_iff.mp h
        split at h
        · rename_i heq
          obtain ⟨rfl, rfl⟩ := Prod.mk.inj heq
          obtain rfl := Option.some.inj h
          exact .got hpc hc hq
        · rename_i heq
          obtain ⟨rfl, rfl⟩ := Prod.mk.inj heq
          obtain rfl := Option.some.inj h
          exact .passed hpc hc hq
      · exact absurd h (by simp)
  | push =>
      simp only [stepCollector] at h
      split at h
      · rename_i item rest hpc
        obtain ⟨q, hq, h⟩ := Option.bind_eq_some_iff.mp h
        obtain rfl := Option.some.inj h
        exact .pushed hpc hq
      · exact absurd h (by simp)
  | unlock =>
      simp only [stepCollector] at h
      split at h
      · rename_i hpc
        obtain rfl := Option.some.inj h
        exact .unlocked hpc
      · exact absurd h (by simp)

/-! ## The signaling loop -/

inductive LoopStepped (C : Codec) (s : State ι) : LoopAction → State ι → Prop
  | checked : s.loop = .top →
      LoopStepped C s .check { s with loop := if s.doTerm then .joining else .polling }
  | stopped {q} : s.loop = .polling → s.signalingQueue.tryPop = some (none, q) →
      LoopStepped C s .pop { s with loop := .top }
  | popped {item q verdict} : s.loop = .polling → s.signalingQueue.tryPop = some (some item, q) →
      process C s.clientsMap item.text = .ok verdict →
      LoopStepped C s .pop (dispatch { s with signalingQueue := q } item.source verdict)
  | threw {item q e} : s.loop = .polling → s.signalingQueue.tryPop = some (some item, q) →
      process C s.clientsMap item.text = .error e →
      LoopStepped C s .pop { s with signalingQueue := q, fault := some (.json e) }
  | emplaced {id c source} : s.loop = .emplacing id c source → s.sharedHeld = false → id ∉ s.clientsMap →
      LoopStepped C s .emplace { s with clientsMap := s.clientsMap.insert id c, loop := .top }
  | discarded {id c source client} : s.loop = .emplacing id c source → s.sharedHeld = false →
      id ∈ s.clientsMap → s.clients[c]? = some client →
      LoopStepped C s .emplace
        { s with clients := s.clients.set c { client with lifetime := .setTerm }, loop := .destroying c }
  | absent {id source} : s.loop = .erasing id source → s.sharedHeld = false →
      s.clientsMap.lookup id = none → LoopStepped C s .erase { s with loop := .top }
  | erased {id source c client} : s.loop = .erasing id source → s.sharedHeld = false →
      s.clientsMap.lookup id = some c → s.clients[c]? = some client →
      LoopStepped C s .erase
        { s with
          clientsMap := s.clientsMap.erase id
          clients := s.clients.set c { client with lifetime := .setTerm }
          loop := .destroying c }
  | destroyed {c client client'} : s.loop = .destroying c → s.clients[c]? = some client →
      client.destroy = some client' →
      LoopStepped C s .destroy
        { s with
          clients := s.clients.set c client'
          loop := if client'.lifetime = .destroyed then .top else .destroying c }
  | answered {c sdp source client q} : s.loop = .answering c sdp source → s.clients[c]? = some client →
      client.signalingQueueIn.tryPush sdp = some q →
      LoopStepped C s .answer
        { s with clients := s.clients.set c { client with signalingQueueIn := q }, loop := .top }
  | sent {message source} : s.loop = .sending message source →
      LoopStepped C s (.send false) { s with loop := .top }
  | sendThrew {message source} : s.loop = .sending message source →
      LoopStepped C s (.send true) { s with fault := some .webSocketSend }
  | joined : s.loop = .joining → s.collector = .done → LoopStepped C s .join { s with loop := .done }

theorem stepLoop_cases {s s' : State ι} {a : LoopAction} (h : stepLoop C s a = some s') :
    LoopStepped C s a s' := by
  cases a with
  | check =>
      simp only [stepLoop] at h
      split at h
      · rename_i hpc
        obtain rfl := Option.some.inj h
        exact .checked hpc
      · exact absurd h (by simp)
  | pop =>
      simp only [stepLoop] at h
      split at h
      · rename_i hpc
        obtain ⟨⟨r, q⟩, hq, h⟩ := Option.bind_eq_some_iff.mp h
        split at h
        · rename_i heq
          obtain ⟨rfl, rfl⟩ := Prod.mk.inj heq
          obtain rfl := Option.some.inj h
          exact .stopped hpc hq
        · rename_i heq
          obtain ⟨rfl, rfl⟩ := Prod.mk.inj heq
          split at h
          · rename_i hv
            obtain rfl := Option.some.inj h
            exact .popped hpc hq hv
          · rename_i he
            obtain rfl := Option.some.inj h
            exact .threw hpc hq he
      · exact absurd h (by simp)
  | emplace =>
      simp only [stepLoop] at h
      split at h
      · rename_i hpc
        split at h
        · exact absurd h (by simp)
        · rename_i hshared
          rw [Bool.not_eq_true] at hshared
          split at h
          · rename_i hmem
            obtain ⟨client, hc, h⟩ := Option.bind_eq_some_iff.mp h
            obtain rfl := Option.some.inj h
            exact .discarded hpc hshared hmem hc
          · rename_i hmem
            obtain rfl := Option.some.inj h
            exact .emplaced hpc hshared hmem
      · exact absurd h (by simp)
  | erase =>
      simp only [stepLoop] at h
      split at h
      · rename_i hpc
        split at h
        · exact absurd h (by simp)
        · rename_i hshared
          rw [Bool.not_eq_true] at hshared
          split at h
          · rename_i hl
            obtain rfl := Option.some.inj h
            exact .absent hpc hshared hl
          · rename_i c hl
            obtain ⟨client, hc, h⟩ := Option.bind_eq_some_iff.mp h
            obtain rfl := Option.some.inj h
            exact .erased hpc hshared hl hc
      · exact absurd h (by simp)
  | destroy =>
      simp only [stepLoop] at h
      split at h
      · rename_i hpc
        obtain ⟨client, hc, h⟩ := Option.bind_eq_some_iff.mp h
        obtain ⟨client', hd, h⟩ := Option.bind_eq_some_iff.mp h
        obtain rfl := Option.some.inj h
        exact .destroyed hpc hc hd
      · exact absurd h (by simp)
  | answer =>
      simp only [stepLoop] at h
      split at h
      · rename_i hpc
        obtain ⟨client, hc, h⟩ := Option.bind_eq_some_iff.mp h
        obtain ⟨q, hq, h⟩ := Option.bind_eq_some_iff.mp h
        obtain rfl := Option.some.inj h
        exact .answered hpc hc hq
      · exact absurd h (by simp)
  | send threw =>
      simp only [stepLoop] at h
      split at h
      · rename_i hpc
        cases threw with
        | true =>
            rw [if_pos rfl] at h
            obtain rfl := Option.some.inj h
            exact .sendThrew hpc
        | false =>
            rw [if_neg (by simp)] at h
            obtain rfl := Option.some.inj h
            exact .sent hpc
      · exact absurd h (by simp)
  | join =>
      simp only [stepLoop] at h
      split at h
      · rename_i hpc hdone
        obtain rfl := Option.some.inj h
        exact .joined hpc hdone
      · exact absurd h (by simp)

/-! ## The multimedia thread -/

inductive MultimediaStepped (s : State ι) : MultimediaAction → State ι → Prop
  | checked : s.multimedia = .top →
      MultimediaStepped s .check { s with multimedia := if s.doTerm then .done else .polling }
  | stopped {q} : s.multimedia = .polling → s.framesQueueIn.tryPop = some (none, q) →
      MultimediaStepped s .pop { s with multimedia := .top }
  | popped {frame q} : s.multimedia = .polling → s.framesQueueIn.tryPop = some (some frame, q) →
      MultimediaStepped s .pop { s with framesQueueIn := q, multimedia := .locking frame }
  | locked {frame order} : s.multimedia = .locking frame → s.loop.exclusiveHeld = false →
      order.Perm s.clientsMap.entries →
      MultimediaStepped s (.lock order) { s with multimedia := .walking frame order }
  | entered {frame e rest} : s.multimedia = .walking frame (e :: rest) →
      MultimediaStepped s .enter { s with multimedia := .sending frame e rest }
  | left {frame e rest} : s.multimedia = .sending frame e rest →
      MultimediaStepped s (.leave false) { s with multimedia := .walking frame rest }
  | threw {frame e rest} : s.multimedia = .sending frame e rest →
      MultimediaStepped s (.leave true) { s with fault := some .sendFrame }
  | unlocked {frame} : s.multimedia = .walking frame [] →
      MultimediaStepped s .unlock { s with multimedia := .top }

theorem stepMultimedia_cases {s s' : State ι} {a : MultimediaAction} (h : stepMultimedia s a = some s') :
    MultimediaStepped s a s' := by
  cases a with
  | check =>
      simp only [stepMultimedia] at h
      split at h
      · rename_i hpc
        obtain rfl := Option.some.inj h
        exact .checked hpc
      · exact absurd h (by simp)
  | pop =>
      simp only [stepMultimedia] at h
      split at h
      · rename_i hpc
        obtain ⟨⟨r, q⟩, hq, h⟩ := Option.bind_eq_some_iff.mp h
        split at h
        · rename_i heq
          obtain ⟨rfl, rfl⟩ := Prod.mk.inj heq
          obtain rfl := Option.some.inj h
          exact .stopped hpc hq
        · rename_i heq
          obtain ⟨rfl, rfl⟩ := Prod.mk.inj heq
          obtain rfl := Option.some.inj h
          exact .popped hpc hq
      · exact absurd h (by simp)
  | lock order =>
      simp only [stepMultimedia] at h
      split at h
      · rename_i hpc
        split at h
        · rename_i hg
          obtain rfl := Option.some.inj h
          exact .locked hpc hg.1 hg.2
        · exact absurd h (by simp)
      · exact absurd h (by simp)
  | enter =>
      simp only [stepMultimedia] at h
      split at h
      · rename_i hpc
        obtain rfl := Option.some.inj h
        exact .entered hpc
      · exact absurd h (by simp)
  | leave threw =>
      simp only [stepMultimedia] at h
      split at h
      · rename_i hpc
        cases threw with
        | true =>
            rw [if_pos rfl] at h
            obtain rfl := Option.some.inj h
            exact .threw hpc
        | false =>
            rw [if_neg (by simp)] at h
            obtain rfl := Option.some.inj h
            exact .left hpc
      · exact absurd h (by simp)
  | unlock =>
      simp only [stepMultimedia] at h
      split at h
      · rename_i hpc
        obtain rfl := Option.some.inj h
        exact .unlocked hpc
      · exact absurd h (by simp)

/-- The multimedia thread touches its own position and the frames. -/
theorem stepMultimedia_frame {s s' : State ι} {a : MultimediaAction} (h : stepMultimedia s a = some s') :
    ∃ m q f, s' = { s with multimedia := m, framesQueueIn := q, fault := f } := by
  cases stepMultimedia_cases h <;> exact ⟨_, _, _, rfl⟩

/-! ## `pushData` -/

inductive PushDataStepped (s : State ι) : PushDataAction → State ι → Prop
  | called {buffer} : PushDataStepped s (.call buffer) { s with callers := s.callers ++ [buffer] }
  | locked {caller buffer} : s.publicApi = none → s.callers[caller]? = some buffer →
      PushDataStepped s (.lock caller)
        { s with callers := s.callers.eraseIdx caller, publicApi := some (.entered buffer) }
  | ignored {time buffer} : s.publicApi = some (.entered buffer) → buffer = none ∨ buffer = some [] →
      PushDataStepped s (.stamp time) { s with publicApi := none }
  | stamped {time data} : s.publicApi = some (.entered (some data)) → data ≠ [] →
      PushDataStepped s (.stamp time)
        { s with publicApi := some (.pushing { data := data, sampleTime := time.sampleTime }) }
  | pushed {frame q} : s.publicApi = some (.pushing frame) → s.framesQueueIn.tryPush frame = some q →
      PushDataStepped s .push { s with framesQueueIn := q, publicApi := none }

theorem stepPushData_cases {s s' : State ι} {a : PushDataAction} (h : stepPushData s a = some s') :
    PushDataStepped s a s' := by
  cases a with
  | call buffer =>
      obtain rfl := Option.some.inj h
      exact .called
  | lock caller =>
      simp only [stepPushData] at h
      split at h
      · rename_i hpc hc
        obtain rfl := Option.some.inj h
        exact .locked hpc hc
      · exact absurd h (by simp)
  | stamp time =>
      simp only [stepPushData] at h
      split at h
      · rename_i hpc
        obtain rfl := Option.some.inj h
        exact .ignored hpc (.inl rfl)
      · rename_i hpc
        obtain rfl := Option.some.inj h
        exact .ignored hpc (.inr rfl)
      · rename_i data hne hpc
        obtain rfl := Option.some.inj h
        exact .stamped hpc hne
      · exact absurd h (by simp)
  | push =>
      simp only [stepPushData] at h
      split at h
      · rename_i hpc
        obtain ⟨q, hq, h⟩ := Option.bind_eq_some_iff.mp h
        obtain rfl := Option.some.inj h
        exact .pushed hpc hq
      · exact absurd h (by simp)

/-- `pushData` touches its own position and the frames. -/
theorem stepPushData_frame {s s' : State ι} {a : PushDataAction} (h : stepPushData s a = some s') :
    ∃ cs p q, s' = { s with callers := cs, publicApi := p, framesQueueIn := q } := by
  cases stepPushData_cases h <;> exact ⟨_, _, _, rfl⟩

/-! ## The threads of a client -/

inductive ClientStepped (C : Codec) (k : Client) : ClientAction → Client → Option Fault → Prop
  | checked : k.thread = .top →
      ClientStepped C k .check { k with thread := if k.doTerm then .done else .polling } none
  | stopped {q} : k.thread = .polling → k.signalingQueueIn.tryPop = some (none, q) →
      ClientStepped C k .pop { k with thread := .top } none
  | popped {sdp q} : k.thread = .polling → k.signalingQueueIn.tryPop = some (some sdp, q) →
      ClientStepped C k .pop { k with signalingQueueIn := q, thread := .applying sdp } none
  | applied {sdp} : k.thread = .applying sdp → ClientStepped C k (.apply false) { k with thread := .top } none
  | threw {sdp} : k.thread = .applying sdp → ClientStepped C k (.apply true) k (some .setRemoteDescription)
  | stateChanged {state} : k.lifetime ≠ .destroyed →
      ClientStepped C k (.stateChange state)
        { k with callbacks := k.callbacks ++ (stateChangeMessage C k.id state).toList } none
  | gatheringStateChanged {state type sdp} : k.lifetime ≠ .destroyed →
      ClientStepped C k (.gatheringStateChange state type sdp)
        { k with callbacks := k.callbacks ++ (gatheringMessage C k.id type sdp state).toList } none
  | pushed {callback text q} : k.lifetime ≠ .destroyed → k.callbacks[callback]? = some text →
      k.signalingQueueOut.tryPush text = some q →
      ClientStepped C k (.push callback)
        { k with signalingQueueOut := q, callbacks := k.callbacks.eraseIdx callback } none

theorem stepClient_cases {k k' : Client} {a : ClientAction} {f : Option Fault}
    (h : stepClient C k a = some (k', f)) : ClientStepped C k a k' f := by
  cases a with
  | check =>
      simp only [stepClient] at h
      split at h
      · rename_i hpc
        obtain ⟨rfl, rfl⟩ := Prod.mk.inj (Option.some.inj h)
        exact .checked hpc
      · exact absurd h (by simp)
  | pop =>
      simp only [stepClient] at h
      split at h
      · rename_i hpc
        obtain ⟨⟨r, q⟩, hq, h⟩ := Option.bind_eq_some_iff.mp h
        split at h
        · rename_i heq
          obtain ⟨rfl, rfl⟩ := Prod.mk.inj heq
          obtain ⟨rfl, rfl⟩ := Prod.mk.inj (Option.some.inj h)
          exact .stopped hpc hq
        · rename_i heq
          obtain ⟨rfl, rfl⟩ := Prod.mk.inj heq
          obtain ⟨rfl, rfl⟩ := Prod.mk.inj (Option.some.inj h)
          exact .popped hpc hq
      · exact absurd h (by simp)
  | apply threw =>
      simp only [stepClient] at h
      split at h
      · rename_i hpc
        cases threw with
        | true =>
            rw [if_pos rfl] at h
            obtain ⟨rfl, rfl⟩ := Prod.mk.inj (Option.some.inj h)
            exact .threw hpc
        | false =>
            rw [if_neg (by simp)] at h
            obtain ⟨rfl, rfl⟩ := Prod.mk.inj (Option.some.inj h)
            exact .applied hpc
      · exact absurd h (by simp)
  | stateChange state =>
      simp only [stepClient] at h
      split at h
      · exact absurd h (by simp)
      · rename_i hl
        obtain ⟨rfl, rfl⟩ := Prod.mk.inj (Option.some.inj h)
        exact .stateChanged hl
  | gatheringStateChange state type sdp =>
      simp only [stepClient] at h
      split at h
      · exact absurd h (by simp)
      · rename_i hl
        obtain ⟨rfl, rfl⟩ := Prod.mk.inj (Option.some.inj h)
        exact .gatheringStateChanged hl
  | push callback =>
      simp only [stepClient] at h
      split at h
      · exact absurd h (by simp)
      · rename_i hl
        obtain ⟨text, ht, h⟩ := Option.bind_eq_some_iff.mp h
        obtain ⟨q, hq, h⟩ := Option.bind_eq_some_iff.mp h
        obtain ⟨rfl, rfl⟩ := Prod.mk.inj (Option.some.inj h)
        exact .pushed hl ht hq

/-! ## The body of `~Client` -/

inductive DestroyStepped (k : Client) : Client → Prop
  | termSet : k.lifetime = .setTerm → DestroyStepped k { k with doTerm := true, lifetime := .stopIn }
  | inStopped : k.lifetime = .stopIn →
      DestroyStepped k { k with signalingQueueIn := k.signalingQueueIn.stop, lifetime := .stopOut }
  | outStopped : k.lifetime = .stopOut →
      DestroyStepped k { k with signalingQueueOut := k.signalingQueueOut.stop, lifetime := .close }
  | closed : k.lifetime = .close → DestroyStepped k { k with lifetime := .join }
  | joined : k.lifetime = .join → k.thread = .done → DestroyStepped k { k with lifetime := .destroyed }

theorem destroy_stepped {k k' : Client} (h : k.destroy = some k') : DestroyStepped k k' := by
  unfold Client.destroy at h
  split at h
  · exact absurd h (by simp)
  · exact absurd h (by simp)
  · rename_i hl
    obtain rfl := Option.some.inj h
    exact .termSet hl
  · rename_i hl
    obtain rfl := Option.some.inj h
    exact .inStopped hl
  · rename_i hl
    obtain rfl := Option.some.inj h
    exact .outStopped hl
  · rename_i hl
    obtain rfl := Option.some.inj h
    exact .closed hl
  · rename_i hl
    split at h
    · rename_i hdone
      obtain rfl := Option.some.inj h
      exact .joined hl hdone
    · exact absurd h (by simp)

/-! ## The destructor -/

inductive DestructorStepped (s : State ι) : State ι → Prop
  | started : s.destructor = .idle →
      DestructorStepped s { s with doTerm := true, destructor := .stopSignaling }
  | signalingStopped : s.destructor = .stopSignaling →
      DestructorStepped s { s with signalingQueue := s.signalingQueue.stop, destructor := .closeWebSocket }
  | webSocketClosed : s.destructor = .closeWebSocket →
      DestructorStepped s { s with destructor := .joinSignaling }
  | signalingJoined : s.destructor = .joinSignaling → s.loop = .done →
      DestructorStepped s { s with destructor := .stopFrames }
  | framesStopped : s.destructor = .stopFrames →
      DestructorStepped s { s with framesQueueIn := s.framesQueueIn.stop, destructor := .joinMultimedia }
  | multimediaJoined : s.destructor = .joinMultimedia → s.multimedia = .done →
      DestructorStepped s { s with destructor := .releasing }
  | finished : s.destructor = .releasing → s.clientsMap.entries = [] →
      DestructorStepped s { s with destructor := .done }
  | released {e client} : s.destructor = .releasing → e ∈ s.clientsMap.entries →
      s.clients[e.2]? = some client →
      DestructorStepped s
        { s with
          clientsMap := s.clientsMap.erase e.1
          clients := s.clients.set e.2 { client with lifetime := .setTerm }
          destructor := .destroying e.2 }
  | destroyed {c client client'} : s.destructor = .destroying c → s.clients[c]? = some client →
      client.destroy = some client' →
      DestructorStepped s
        { s with
          clients := s.clients.set c client'
          destructor := if client'.lifetime = .destroyed then .releasing else .destroying c }

theorem stepDestructor_cases {s s' : State ι} (h : stepDestructor s = some s') : DestructorStepped s s' := by
  unfold stepDestructor at h
  split at h
  · rename_i hpc
    obtain rfl := Option.some.inj h
    exact .started hpc
  · rename_i hpc
    obtain rfl := Option.some.inj h
    exact .signalingStopped hpc
  · rename_i hpc
    obtain rfl := Option.some.inj h
    exact .webSocketClosed hpc
  · rename_i hpc
    split at h
    · rename_i hdone
      obtain rfl := Option.some.inj h
      exact .signalingJoined hpc hdone
    · exact absurd h (by simp)
  · rename_i hpc
    obtain rfl := Option.some.inj h
    exact .framesStopped hpc
  · rename_i hpc
    split at h
    · rename_i hdone
      obtain rfl := Option.some.inj h
      exact .multimediaJoined hpc hdone
    · exact absurd h (by simp)
  · rename_i hpc
    split at h
    · rename_i hempty
      obtain rfl := Option.some.inj h
      exact .finished hpc hempty
    · rename_i e rest he
      obtain ⟨client, hc, h⟩ := Option.bind_eq_some_iff.mp h
      obtain rfl := Option.some.inj h
      exact .released hpc (by rw [he]; exact List.mem_cons_self) hc
  · rename_i hpc
    obtain ⟨client, hc, h⟩ := Option.bind_eq_some_iff.mp h
    obtain ⟨client', hd, h⟩ := Option.bind_eq_some_iff.mp h
    obtain rfl := Option.some.inj h
    exact .destroyed hpc hc hd
  · exact absurd h (by simp)

/-! ## All threads -/

/-- **Inversion of a step.** -/
inductive Stepped (C : Codec) (s : State ι) : Action ι → State ι → Prop
  | onMessage {a s'} : OnMessageStepped C s a s' → Stepped C s (.onMessage a) s'
  | collector {a s'} : CollectorStepped s a s' → Stepped C s (.collector a) s'
  | loop {a s'} : LoopStepped C s a s' → Stepped C s (.loop a) s'
  | multimedia {a s'} : stepMultimedia s a = some s' → Stepped C s (.multimedia a) s'
  | pushData {a s'} : stepPushData s a = some s' → Stepped C s (.pushData a) s'
  | client {c a k k' f} : s.clients[c]? = some k → ClientStepped C k a k' f →
      Stepped C s (.client c a) { s with clients := s.clients.set c k', fault := f }
  | destructor {s'} : DestructorStepped s s' → Stepped C s .destructor s'

theorem step_cases {s s' : State ι} {a : Action ι} (h : step C s a = some s') :
    s.fault = none ∧ Stepped C s a s' := by
  unfold step at h
  split at h
  · exact absurd h (by simp)
  · rename_i hf
    refine ⟨by simpa using hf, ?_⟩
    cases a with
    | onMessage a => exact .onMessage (stepOnMessage_cases h)
    | collector a => exact .collector (stepCollector_cases h)
    | loop a => exact .loop (stepLoop_cases h)
    | multimedia a => exact .multimedia h
    | pushData a => exact .pushData h
    | client c a =>
        obtain ⟨k, hk, h⟩ := Option.bind_eq_some_iff.mp h
        obtain ⟨⟨k', f⟩, hc, h⟩ := Option.bind_eq_some_iff.mp h
        obtain rfl := Option.some.inj h
        exact .client hk (stepClient_cases hc)
    | destructor => exact .destructor (stepDestructor_cases h)

/-! While no exception has ended the process, a thread's step is the system's. -/

theorem step_onMessage {s : State ι} (hf : s.fault = none) (a : OnMessageAction ι) :
    step C s (.onMessage a) = stepOnMessage C s a := by
  unfold step
  rw [hf]
  rfl

theorem step_collector {s : State ι} (hf : s.fault = none) (a : CollectorAction) :
    step C s (.collector a) = stepCollector s a := by
  unfold step
  rw [hf]
  rfl

theorem step_loop {s : State ι} (hf : s.fault = none) (a : LoopAction) :
    step C s (.loop a) = stepLoop C s a := by
  unfold step
  rw [hf]
  rfl

theorem step_multimedia {s : State ι} (hf : s.fault = none) (a : MultimediaAction) :
    step C s (.multimedia a) = stepMultimedia s a := by
  unfold step
  rw [hf]
  rfl

theorem step_destructor {s : State ι} (hf : s.fault = none) : step C s .destructor = stepDestructor s := by
  unfold step
  rw [hf]
  rfl

/-- Only the loop moves the loop. -/
theorem loop_kept {s s' : State ι} {a : Action ι} (h : step C s a = some s') (ha : ∀ b, a ≠ .loop b) :
    s'.loop = s.loop := by
  cases (step_cases h).2 with
  | loop _ => exact absurd rfl (ha _)
  | onMessage h => cases h <;> rfl
  | collector h => cases h <;> rfl
  | multimedia h =>
      obtain ⟨m, q, f, rfl⟩ := stepMultimedia_frame h
      rfl
  | pushData h =>
      obtain ⟨cs, p, q, rfl⟩ := stepPushData_frame h
      rfl
  | client _ _ => rfl
  | destructor h => cases h <;> rfl

/-- Only the loop, when it has the exclusive lock, and the destructor change the registry. -/
theorem clientsMap_kept {s s' : State ι} {a : Action ι} (h : step C s a = some s')
    (hloop : a ≠ .loop .emplace ∧ a ≠ .loop .erase) (hdestructor : a ≠ .destructor) :
    s'.clientsMap = s.clientsMap := by
  cases (step_cases h).2 with
  | loop h =>
      cases h with
      | @popped item q verdict _ _ _ => cases verdict <;> rfl
      | emplaced _ _ _ | discarded _ _ _ _ => exact absurd rfl hloop.1
      | absent _ _ _ | erased _ _ _ _ => exact absurd rfl hloop.2
      | checked _ | stopped _ _ | threw _ _ _ | destroyed _ _ _ | answered _ _ _ | sent _ | sendThrew _
      | joined _ _ => rfl
  | onMessage h => cases h <;> rfl
  | collector h => cases h <;> rfl
  | multimedia h =>
      obtain ⟨m, q, f, rfl⟩ := stepMultimedia_frame h
      rfl
  | pushData h =>
      obtain ⟨cs, p, q, rfl⟩ := stepPushData_frame h
      rfl
  | client _ _ => rfl
  | destructor _ => exact absurd rfl hdestructor

/-! ## Exceptions -/

/-- The step in which an exception leaves a thread. -/
inductive Throws : Action ι → Fault → Prop
  | json {e} : Throws (.loop .pop) (.json e)
  | webSocketSend : Throws (.loop (.send true)) .webSocketSend
  | setRemoteDescription {c} : Throws (.client c (.apply true)) .setRemoteDescription
  | sendFrame : Throws (.multimedia (.leave true)) .sendFrame

theorem throws_of_fault {s s' : State ι} {a : Action ι} {f : Fault} (h : step C s a = some s')
    (hf : s'.fault = some f) : Throws a f := by
  obtain ⟨hnone, hst⟩ := step_cases h
  have hkept : ∀ {o : Option Fault}, o = s.fault → o ≠ some f := by
    intro o ho
    rw [ho, hnone]
    simp
  cases hst with
  | client _ hc =>
      cases hc with
      | threw _ =>
          obtain rfl := Option.some.inj hf
          exact .setRemoteDescription
      | checked _ | stopped _ _ | popped _ _ | applied _ | stateChanged _ | gatheringStateChanged _
      | pushed _ _ _ => exact absurd hf (by simp)
  | loop h =>
      cases h with
      | threw _ _ _ =>
          obtain rfl := Option.some.inj hf
          exact .json
      | sendThrew _ =>
          obtain rfl := Option.some.inj hf
          exact .webSocketSend
      | @popped item q verdict _ _ _ => cases verdict <;> exact absurd hf (hkept rfl)
      | checked _ | stopped _ _ | emplaced _ _ _ | discarded _ _ _ _ | absent _ _ _ | erased _ _ _ _
      | destroyed _ _ _ | answered _ _ _ | sent _ | joined _ _ => exact absurd hf (hkept rfl)
  | multimedia h =>
      cases stepMultimedia_cases h with
      | threw _ =>
          obtain rfl := Option.some.inj hf
          exact .sendFrame
      | checked _ | stopped _ _ | popped _ _ | locked _ _ _ | entered _ | left _ | unlocked _ =>
          exact absurd hf (hkept rfl)
  | onMessage h => cases h <;> exact absurd hf (hkept rfl)
  | collector h => cases h <;> exact absurd hf (hkept rfl)
  | destructor h => cases h <;> exact absurd hf (hkept rfl)
  | pushData h =>
      obtain ⟨cs, p, q, rfl⟩ := stepPushData_frame h
      exact absurd hf (hkept rfl)

/-! ## One client -/

/-- The step is one of the client's own threads, or the loop is passing it an answer. -/
def Concerns (s : State ι) (c : ClientRef) (a : Action ι) : Prop :=
  (∃ b, a = .client c b) ∨ (a = .loop .answer ∧ ∃ sdp source, s.loop = .answering c sdp source)

/-- **Inversion of a step for one client**: what it can do to `c`. -/
inductive ClientChange (C : Codec) (s : State ι) (c : ClientRef) :
    Action ι → Option Client → Option Client → Prop
  | kept {a o} : ¬ Concerns s c a → ClientChange C s c a o o
  | constructed {a id} : ¬ Concerns s c a → ClientChange C s c a none (some (Client.new id))
  | collected {a k expired text q} : ¬ Concerns s c a →
      k.signalingQueueOut.tryPopFor expired = some (some text, q) →
      ClientChange C s c a (some k) (some { k with signalingQueueOut := q })
  | released {a k} : ¬ Concerns s c a → ClientChange C s c a (some k) (some { k with lifetime := .setTerm })
  | destroyed {a k k'} : ¬ Concerns s c a → k.destroy = some k' → ClientChange C s c a (some k) (some k')
  | answered {sdp source k q} : s.loop = .answering c sdp source → k.signalingQueueIn.tryPush sdp = some q →
      ClientChange C s c (.loop .answer) (some k) (some { k with signalingQueueIn := q })
  | moved {a k k' f} : ClientStepped C k a k' f → ClientChange C s c (.client c a) (some k) (some k')

/-- Only a client's own steps and the answers for it concern it. -/
theorem not_concerns {s : State ι} {c : ClientRef} {a : Action ι} (hclient : ∀ b, a ≠ .client c b)
    (hanswer : a ≠ .loop .answer) : ¬ Concerns s c a := by
  rintro (⟨b, rfl⟩ | ⟨rfl, -⟩)
  · exact hclient b rfl
  · exact hanswer rfl

/-- One client of the list is set. -/
theorem ClientChange.of_set {s : State ι} {a : Action ι} {c d : ClientRef} {k k' : Client}
    (hk : s.clients[d]? = some k) (hself : d = c → ClientChange C s c a (some k) (some k'))
    (hother : d ≠ c → ¬ Concerns s c a) :
    ClientChange C s c a s.clients[c]? (s.clients.set d k')[c]? := by
  by_cases hdc : d = c
  · subst hdc
    obtain ⟨hlt, -⟩ := List.getElem?_eq_some_iff.mp hk
    rw [List.getElem?_set_self hlt, hk]
    exact hself rfl
  · rw [List.getElem?_set_ne hdc]
    exact .kept (hother hdc)

theorem client_change {s s' : State ι} {a : Action ι} (h : step C s a = some s') (c : ClientRef) :
    ClientChange C s c a s.clients[c]? s'.clients[c]? := by
  cases (step_cases h).2 with
  | onMessage h =>
      cases h <;> exact .kept (not_concerns (by simp) (by simp))
  | collector h =>
      cases h with
      | got _ hk hq =>
          exact .of_set hk (fun _ => .collected (not_concerns (by simp) (by simp)) hq) fun _ =>
            not_concerns (by simp) (by simp)
      | checked _ | locked _ _ _ | passed _ _ _ | pushed _ _ | unlocked _ =>
          exact .kept (not_concerns (by simp) (by simp))
  | loop h =>
      cases h with
      | @popped item q verdict _ _ _ =>
          have hno : ¬ Concerns s c (.loop .pop) := not_concerns (by simp) (by simp)
          cases verdict with
          | skip | answer _ _ | erase _ | send _ => exact .kept hno
          | request id =>
              show ClientChange C s c _ s.clients[c]? (s.clients ++ [Client.new id])[c]?
              by_cases hlt : c < s.clients.length
              · rw [List.getElem?_append_left hlt]
                exact .kept hno
              · have hle := Nat.le_of_not_lt hlt
                rw [List.getElem?_append_right hle, List.getElem?_eq_none hle, List.getElem?_singleton]
                split
                · exact .constructed hno
                · exact .kept hno
      | discarded _ _ _ hk | erased _ _ _ hk =>
          exact .of_set hk (fun _ => .released (not_concerns (by simp) (by simp))) fun _ =>
            not_concerns (by simp) (by simp)
      | destroyed _ hk hd =>
          exact .of_set hk (fun _ => .destroyed (not_concerns (by simp) (by simp)) hd) fun _ =>
            not_concerns (by simp) (by simp)
      | @answered d sdp source client q hpc hk hq =>
          refine .of_set hk (fun hdc => .answered (hdc ▸ hpc) hq) fun hdc => ?_
          rintro (⟨b, hb⟩ | ⟨-, sdp', source', hpc'⟩)
          · exact absurd hb (by simp)
          · exact hdc (Loop.answering.inj (hpc.symm.trans hpc')).1
      | checked _ | stopped _ _ | threw _ _ _ | emplaced _ _ _ | absent _ _ _ | sent _ | sendThrew _
      | joined _ _ => exact .kept (not_concerns (by simp) (by simp))
  | multimedia h =>
      obtain ⟨m, q, f, rfl⟩ := stepMultimedia_frame h
      exact .kept (not_concerns (by simp) (by simp))
  | pushData h =>
      obtain ⟨cs, p, q, rfl⟩ := stepPushData_frame h
      exact .kept (not_concerns (by simp) (by simp))
  | @client d b k k' f hk hc =>
      refine .of_set hk (fun hdc => ?_) fun hdc => not_concerns ?_ (by simp)
      · subst hdc
        exact .moved hc
      · intro b' hb
        exact hdc (Action.client.inj hb).1
  | destructor h =>
      have hno : ¬ Concerns s c .destructor := not_concerns (by simp) (by simp)
      cases h with
      | released _ _ hk => exact .of_set hk (fun _ => .released hno) fun _ => hno
      | destroyed _ hk hd => exact .of_set hk (fun _ => .destroyed hno hd) fun _ => hno
      | started _ | signalingStopped _ | webSocketClosed _ | signalingJoined _ _ | framesStopped _
      | multimediaJoined _ _ | finished _ _ => exact .kept hno

end Streamer

end WebrtcStreamer
