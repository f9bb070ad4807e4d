import WebrtcStreamer.Streamer.Invariant

/-!
# `Streamer.Provenance` — where the messages come from

Inbound messages and the clients' own share one queue and are told apart only by the `io_mode` that each
side writes. `Traced` is the invariant that they are told apart correctly, all the way: every queued text
is what its source has produced, and what the loop is doing is what that source may ask for. A received
message leads to a request or an answer under its own `id`, a client's message to an erase or a send under
the client's id. `Sourced` says of the tags that what is known of a message when it is received stays known.
-/

namespace WebrtcStreamer

namespace Streamer

open Transition Json

variable {ι : Type} {C : Codec}

/-! ## Ids of clients -/

/-- The id of a client, which it keeps. -/
def idOf (clients : List Client) (c : ClientRef) : Option Bytes := clients[c]?.map Client.id

theorem idOf_set {clients : List Client} {c : ClientRef} {k k' : Client} (hk : clients[c]? = some k)
    (hid : k'.id = k.id) : idOf (clients.set c k') = idOf clients := by
  funext d
  unfold idOf
  by_cases hcd : c = d
  · subst hcd
    obtain ⟨hlt, -⟩ := List.getElem?_eq_some_iff.mp hk
    rw [List.getElem?_set_self hlt, hk, Option.map_some, Option.map_some, hid]
  · rw [List.getElem?_set_ne hcd]

theorem idOf_append {clients : List Client} {c : ClientRef} {X : Bytes} (h : idOf clients c = some X)
    (more : List Client) : idOf (clients ++ more) c = some X := by
  unfold idOf at h ⊢
  obtain ⟨k, hk, hid⟩ := Option.map_eq_some_iff.mp h
  obtain ⟨hlt, -⟩ := List.getElem?_eq_some_iff.mp hk
  rw [List.getElem?_append_left hlt, hk, Option.map_some, hid]

/-- No client of the first list changes its id. -/
def Grows (clients clients' : List Client) : Prop := ∀ c X, idOf clients c = some X → idOf clients' c = some X

theorem grows_set {clients : List Client} {c : ClientRef} {k k' : Client} (hk : clients[c]? = some k)
    (hid : k'.id = k.id) : Grows clients (clients.set c k') := by
  intro d X h
  rw [idOf_set hk hid]
  exact h

/-! ## The invariant -/

/-- The text is what the `onMessage` callback made of the data that the source names. -/
def Received (C : Codec) (item : Item ι) : Prop :=
  ∃ tag data, item.source = .inbound tag data ∧ Inbound C data item.text

/-- The text is what a callback of the client that the source names produced. -/
def Produced (C : Codec) (clients : List Client) (item : Item ι) : Prop :=
  ∃ c X, item.source = .client c ∧ idOf clients c = some X ∧ Emitted C X item.text

/-- The source is a received JSON message with this `id`. -/
def FromPeer (C : Codec) (id : Bytes) (jsonMsg : Json) (source : Source ι) : Prop :=
  ∃ tag message, source = .inbound tag (.text message) ∧ C.parse message = some jsonMsg ∧
    jsonMsg.HasString (str "id") id

/-- Every message that a client has under way is its own. -/
def Outgoing (C : Codec) (clients : List Client) : Prop :=
  ∀ (c : ClientRef) (k : Client), clients[c]? = some k →
    (∀ text ∈ k.callbacks, Emitted C k.id text) ∧ ∀ text ∈ k.signalingQueueOut.queue, Emitted C k.id text

/-- What the loop is doing is what the source of its message may ask for. -/
def LoopTraced (C : Codec) (clients : List Client) (clientsMap : ClientsMap) : Loop ι → Prop
  | .emplacing id _ source =>
      ∃ jsonMsg, FromPeer C id jsonMsg source ∧ jsonMsg.HasString (str "type") (str "request")
  | .answering c sdp source =>
      ∃ id jsonMsg, FromPeer C id jsonMsg source ∧ jsonMsg.HasString (str "type") (str "answer") ∧
        jsonMsg.HasString (str "sdp") sdp ∧ clientsMap.lookup id = some c
  | .erasing id source => ∃ c, source = .client c ∧ idOf clients c = some id
  | .sending message source =>
      ∃ c id type sdp, source = .client c ∧ idOf clients c = some id ∧
        C.dump (descriptionMessage id type sdp) = some message
  | _ => True

structure Traced (C : Codec) (s : State ι) : Prop where
  onMessage : ∀ item, s.onMessage = .pushing item → Received C item
  queue : ∀ item ∈ s.signalingQueue.queue, Received C item ∨ Produced C s.clients item
  holding : ∀ item rest, s.collector = .holding item rest → Produced C s.clients item
  outgoing : Outgoing C s.clients
  loop : LoopTraced C s.clients s.clientsMap s.loop

theorem traced_init : Traced C (init ι) where
  onMessage := by intro item h; exact absurd h (by simp [init])
  queue := by intro item h; exact absurd h (by simp [init, BlockingQueue.new])
  holding := by intro item rest h; exact absurd h (by simp [init])
  outgoing := by intro c k h; exact absurd h (by simp [init])
  loop := trivial

theorem Produced.grow {clients clients' : List Client} {item : Item ι} (h : Produced C clients item)
    (hg : Grows clients clients') : Produced C clients' item := by
  obtain ⟨c, X, hs, hX, he⟩ := h
  exact ⟨c, X, hs, hg c X hX, he⟩

theorem LoopTraced.grow {clients clients' : List Client} {m : ClientsMap} {l : Loop ι}
    (h : LoopTraced C clients m l) (hg : Grows clients clients') : LoopTraced C clients' m l := by
  cases l with
  | erasing id source =>
      obtain ⟨c, hs, hid⟩ := h
      exact ⟨c, hs, hg c id hid⟩
  | sending message source =>
      obtain ⟨c, id, type, sdp, hs, hid, hd⟩ := h
      exact ⟨c, id, type, sdp, hs, hg c id hid, hd⟩
  | emplacing _ _ _ | answering _ _ _ => exact h
  | top | polling | destroying _ | joining | done => trivial

theorem Outgoing.set {clients : List Client} (h : Outgoing C clients) {c : ClientRef} {k' : Client}
    (hcb : ∀ text ∈ k'.callbacks, Emitted C k'.id text)
    (hout : ∀ text ∈ k'.signalingQueueOut.queue, Emitted C k'.id text) : Outgoing C (clients.set c k') := by
  intro d k hk
  by_cases hcd : c = d
  · subst hcd
    rw [List.getElem?_set] at hk
    simp only [if_true] at hk
    split at hk
    · obtain rfl := Option.some.inj hk
      exact ⟨hcb, hout⟩
    · exact absurd hk (by simp)
  · rw [List.getElem?_set_ne hcd] at hk
    exact h d k hk

theorem Outgoing.append {clients : List Client} (h : Outgoing C clients) (id : Bytes) :
    Outgoing C (clients ++ [Client.new id]) := by
  intro d k hk
  rcases List.mem_append.mp (List.mem_of_getElem? hk) with hmem | hmem
  · obtain ⟨n, hn⟩ := List.mem_iff_getElem?.mp hmem
    exact h n k hn
  · obtain rfl := List.mem_singleton.mp hmem
    exact ⟨by simp [Client.new], by simp [Client.new, BlockingQueue.new]⟩

/-- A step that changes one client, keeping its id, and nothing else that the invariant is about. -/
theorem Traced.setClient {s : State ι} (ht : Traced C s) {c : ClientRef} {k : Client}
    (hk : s.clients[c]? = some k) (k' : Client) (hid : k'.id = k.id)
    (hcb : ∀ text ∈ k'.callbacks, Emitted C k'.id text)
    (hout : ∀ text ∈ k'.signalingQueueOut.queue, Emitted C k'.id text) :
    Traced C { s with clients := s.clients.set c k' } :=
  have hg := grows_set hk hid
  { onMessage := ht.onMessage
    queue := fun item h => (ht.queue item h).imp_right (fun hp => hp.grow hg)
    holding := fun item rest h => (ht.holding item rest h).grow hg
    outgoing := ht.outgoing.set hcb hout
    loop := ht.loop.grow hg }

/-- A step of `~Client` is such a step. -/
theorem Traced.destroy {s : State ι} (ht : Traced C s) {c : ClientRef} {k k' : Client}
    (hk : s.clients[c]? = some k) (hd : k.destroy = some k') :
    Traced C { s with clients := s.clients.set c k' } := by
  obtain ⟨-, -, hid, hcb, hout⟩ := destroy_cases hd
  obtain ⟨hcb', hout'⟩ := ht.outgoing c k hk
  refine ht.setClient hk k' hid ?_ ?_
  · rw [hcb, hid]
    exact hcb'
  · rw [hout, hid]
    exact hout'

/-! ## Each thread -/

theorem Traced.push {s : State ι} (ht : Traced C s) {item : Item ι} {q : BlockingQueue (Item ι)}
    (hitem : Received C item ∨ Produced C s.clients item) (hq : s.signalingQueue.tryPush item = some q) :
    ∀ x ∈ q.queue, Received C x ∨ Produced C s.clients x := by
  intro x hx
  rcases BlockingQueue.mem_of_tryPush hq hx with hx | rfl
  · exact ht.queue x hx
  · exact hitem

theorem Traced.stepOnMessage {s s' : State ι} {a : OnMessageAction ι} (ht : Traced C s)
    (h : OnMessageStepped C s a s') : Traced C s' := by
  cases h with
  | dropped _ _ => exact ht
  | received _ hin =>
      refine { ht with onMessage := ?_ }
      intro item h
      obtain rfl := OnMessage.pushing.inj h
      exact ⟨_, _, rfl, hin⟩
  | pushed hpc hq =>
      exact { ht with
        onMessage := fun item h => absurd h (by simp)
        queue := ht.push (.inl (ht.onMessage _ hpc)) hq }

theorem Traced.stepCollector {s s' : State ι} {a : CollectorAction} (ht : Traced C s)
    (h : CollectorStepped s a s') : Traced C s' := by
  cases h with
  | checked _ =>
      refine { ht with holding := fun item rest h => ?_ }
      change (if s.doTerm then Collector.done else .locking) = _ at h
      split at h <;> exact absurd h (by simp)
  | locked _ _ _ | passed _ _ _ | unlocked _ =>
      exact { ht with holding := fun item rest h => absurd h (by simp) }
  | @got _ e rest client text q hpc hk hq =>
      -- the message moves from the client's queue to the collector
      obtain ⟨hcb, hout⟩ := ht.outgoing e.2 client hk
      have htake : Emitted C client.id text ∧ ∀ x ∈ q.queue, Emitted C client.id x := by
        rcases BlockingQueue.tryPopFor_cases hq with ⟨-, -, hr, -⟩ | ⟨x, rest', hqueue, hr, rfl⟩
        · exact absurd hr (by simp)
        · obtain rfl := Option.some.inj hr
          rw [hqueue] at hout
          exact ⟨hout text List.mem_cons_self, fun x hx => hout x (List.mem_cons_of_mem _ hx)⟩
      have hset := ht.setClient hk { client with signalingQueueOut := q } rfl hcb htake.2
      refine { hset with holding := fun item rest' h => ?_ }
      obtain ⟨rfl, -⟩ := Collector.holding.inj h
      refine ⟨e.2, client.id, rfl, ?_, htake.1⟩
      refine grows_set hk ?_ e.2 client.id ?_
      · rfl
      · rw [idOf, hk]
        rfl
  | pushed hpc hq =>
      exact { ht with
        queue := ht.push (.inr (ht.holding _ _ hpc)) hq
        holding := fun item rest h => absurd h (by simp) }

theorem Traced.stepLoop {s s' : State ι} {a : LoopAction} (ht : Traced C s) (h : LoopStepped C s a s') :
    Traced C s' := by
  cases h with
  | checked _ =>
      refine { ht with loop := ?_ }
      show LoopTraced C s.clients s.clientsMap (if s.doTerm then .joining else .polling)
      split <;> trivial
  | stopped _ | absent _ _ _ | sent _ | joined _ _ => exact { ht with loop := trivial }
  | threw _ hq _ =>
      obtain ⟨rest, hqueue, rfl⟩ := BlockingQueue.tryPop_some hq
      refine { ht with queue := fun x hx => ht.queue x ?_ }
      rw [hqueue]
      exact List.mem_cons_of_mem _ hx
  | @popped item q verdict hpc hq hv =>
      obtain ⟨rest, hqueue, rfl⟩ := BlockingQueue.tryPop_some hq
      have hitem := ht.queue item (by rw [hqueue]; exact List.mem_cons_self)
      have hrest : ∀ x ∈ rest, Received C x ∨ Produced C s.clients x := by
        intro x hx
        exact ht.queue x (by rw [hqueue]; exact List.mem_cons_of_mem _ hx)
      have hverdict : ∀ l, LoopTraced C s.clients s.clientsMap l →
          Traced C { s with signalingQueue := { s.signalingQueue with queue := rest }, loop := l } :=
        fun l hl => { ht with queue := hrest, loop := hl }
      rcases hitem with ⟨tag, data, hsrc, hin⟩ | ⟨c, X, hsrc, hX, hem⟩
      · -- received: `io_mode` is `input`
        rw [hsrc]
        obtain ⟨message, jsonMsg, rfl, hp, hiv⟩ := process_inbound_verdict hin hv
        cases hiv with
        | skip => exact hverdict .top trivial
        | @request id hid htype =>
            have hg : Grows s.clients (s.clients ++ [Client.new id]) := fun c X h => idOf_append h _
            exact {
              onMessage := ht.onMessage
              queue := fun x h => (hrest x h).imp_right (fun hp => hp.grow hg)
              holding := fun x r h => (ht.holding x r h).grow hg
              outgoing := ht.outgoing.append _
              loop := ⟨jsonMsg, ⟨tag, message, rfl, hp, hid⟩, htype⟩ }
        | answer hid htype hl hsdp =>
            exact hverdict _ ⟨_, jsonMsg, ⟨tag, message, rfl, hp, hid⟩, htype, hsdp, hl⟩
      · -- a client's: `io_mode` is `output`, and the id is the client's
        rw [hsrc]
        rcases hem with hd | ⟨type, sdp, hd⟩
        · rw [process_disconnect s.clientsMap hd] at hv
          obtain rfl := Except.ok.inj hv
          exact hverdict _ ⟨c, rfl, hX⟩
        · rw [process_description s.clientsMap hd] at hv
          obtain rfl := Except.ok.inj hv
          exact hverdict _ ⟨c, X, type, sdp, rfl, hX, hd⟩
  | emplaced _ _ _ => exact { ht with loop := trivial }
  | @discarded id c source client hpc _ _ hk =>
      obtain ⟨hcb, hout⟩ := ht.outgoing c client hk
      exact { ht.setClient hk { client with lifetime := .setTerm } rfl hcb hout with loop := trivial }
  | @erased id source c client hpc _ _ hk =>
      obtain ⟨hcb, hout⟩ := ht.outgoing c client hk
      exact { ht.setClient hk { client with lifetime := .setTerm } rfl hcb hout with loop := trivial }
  | @destroyed c client client' hpc hk hd =>
      refine { ht.destroy hk hd with loop := ?_ }
      show LoopTraced C _ s.clientsMap (if client'.lifetime = .destroyed then .top else .destroying c)
      split <;> trivial
  | @answered c sdp source client q hpc hk hq =>
      obtain ⟨hcb, hout⟩ := ht.outgoing c client hk
      exact { ht.setClient hk { client with signalingQueueIn := q } rfl hcb hout with loop := trivial }
  | sendThrew _ => exact { ht with }

theorem Traced.stepClient {s : State ι} (ht : Traced C s) {c : ClientRef} {k k' : Client} {a : ClientAction}
    {f : Option Fault} (hk : s.clients[c]? = some k) (h : ClientStepped C k a k' f) :
    Traced C { s with clients := s.clients.set c k', fault := f } := by
  obtain ⟨hcb, hout⟩ := ht.outgoing c k hk
  have hnew : ∀ {o : Option Bytes}, (∀ text, o = some text → Emitted C k.id text) →
      ∀ text ∈ k.callbacks ++ o.toList, Emitted C k.id text := by
    intro o ho text hmem
    rcases List.mem_append.mp hmem with hmem | hmem
    · exact hcb text hmem
    · exact ho text (Option.mem_toList.mp hmem)
  have hkept : k'.id = k.id ∧ (∀ text ∈ k'.callbacks, Emitted C k.id text) ∧
      ∀ text ∈ k'.signalingQueueOut.queue, Emitted C k.id text := by
    cases h with
    | checked _ | stopped _ | popped _ _ | applied _ | threw _ => exact ⟨rfl, hcb, hout⟩
    | stateChanged _ =>
        refine ⟨rfl, hnew fun text h => ?_, hout⟩
        unfold stateChangeMessage at h
        split at h
        · exact .inl h
        · exact .inl h
        · exact .inl h
        · exact absurd h (by simp)
    | gatheringStateChanged _ =>
        refine ⟨rfl, hnew fun text h => ?_, hout⟩
        unfold gatheringMessage at h
        split at h
        · exact .inr ⟨_, _, h⟩
        · exact absurd h (by simp)
    | @pushed callback text q _ htext hq =>
        refine ⟨rfl, fun x hx => hcb x (List.mem_of_mem_eraseIdx hx), fun x hx => ?_⟩
        rcases BlockingQueue.mem_of_tryPush hq hx with hx | rfl
        · exact hout x hx
        · exact hcb x (List.mem_of_getElem? htext)
  obtain ⟨hid, hcb', hout'⟩ := hkept
  exact { ht.setClient hk k' hid (hid ▸ hcb') (hid ▸ hout') with }

theorem Traced.stepDestructor {s s' : State ι} (hs : Sane s) (ht : Traced C s) (h : DestructorStepped s s') :
    Traced C s' := by
  cases h with
  | started _ | webSocketClosed _ | signalingJoined _ _ | framesStopped _ | multimediaJoined _ _ | finished _ =>
      exact { ht with }
  | signalingStopped _ => exact { ht with queue := fun x hx => ht.queue x hx }
  | @released e client hpc _ hk =>
      have hloop : s.loop = .done := hs.signalingJoined (by rw [hpc]; rfl)
      obtain ⟨hcb, hout⟩ := ht.outgoing e.2 client hk
      refine { ht.setClient hk { client with lifetime := .setTerm } rfl hcb hout with loop := ?_ }
      show LoopTraced C _ _ s.loop
      rw [hloop]
      trivial
  | destroyed _ hk hd => exact { ht.destroy hk hd with }

/-! ## Every run -/

theorem traced_step {s s' : State ι} {a : Action ι} (hs : Sane s) (ht : Traced C s)
    (h : step C s a = some s') : Traced C s' := by
  cases (step_cases h).2 with
  | onMessage h => exact ht.stepOnMessage h
  | collector h => exact ht.stepCollector h
  | loop h => exact ht.stepLoop h
  | multimedia h =>
      obtain ⟨m, q, f, rfl⟩ := stepMultimedia_frame h
      exact { ht with }
  | pushData h =>
      obtain ⟨cs, p, q, rfl⟩ := stepPushData_frame h
      exact { ht with }
  | client hk hc => exact ht.stepClient hk hc
  | destructor h => exact ht.stepDestructor hs h

theorem exec_traced {as : List (Action ι)} {s : State ι} (h : exec (step C) (init ι) as = some s) :
    Sane s ∧ Traced C s :=
  exec_invariant (I := fun s => Sane s ∧ Traced C s) ⟨sane_init, traced_init⟩
    (fun _ _ _ hi hst => ⟨sane_step hi.1 hst, traced_step hi.1 hi.2 hst⟩) as s h

/-! ## New clients -/

/-- A step keeps the ids of all clients, or constructs one client more, for a request. -/
theorem ids_step {s s' : State ι} {a : Action ι} (h : step C s a = some s') :
    idOf s'.clients = idOf s.clients ∨
    ∃ id source, s'.clients = s.clients ++ [Client.new id] ∧
      s'.loop = .emplacing id s.clients.length source := by
  cases (step_cases h).2 with
  | onMessage h => cases h <;> exact .inl rfl
  | collector h =>
      cases h with
      | got _ hk _ => exact .inl (idOf_set hk rfl)
      | checked _ | locked _ _ _ | passed _ _ _ | pushed _ _ | unlocked _ => exact .inl rfl
  | loop h =>
      cases h with
      | @popped item q verdict _ _ _ =>
          cases verdict with
          | request id => exact .inr ⟨id, item.source, rfl, rfl⟩
          | skip | answer _ _ | erase _ | send _ => exact .inl rfl
      | discarded _ _ _ hk | erased _ _ _ hk | answered _ hk _ => exact .inl (idOf_set hk rfl)
      | destroyed _ hk hd => exact .inl (idOf_set hk (destroy_cases hd).2.2.1)
      | checked _ | stopped _ | threw _ _ _ | emplaced _ _ _ | absent _ _ _ | sent _ | sendThrew _
      | joined _ _ => exact .inl rfl
  | multimedia h =>
      obtain ⟨m, q, f, rfl⟩ := stepMultimedia_frame h
      exact .inl rfl
  | pushData h =>
      obtain ⟨cs, p, q, rfl⟩ := stepPushData_frame h
      exact .inl rfl
  | client hk hc => exact .inl (idOf_set hk (by cases hc <;> rfl))
  | destructor h =>
      cases h with
      | released _ _ hk => exact .inl (idOf_set hk rfl)
      | destroyed _ hk hd => exact .inl (idOf_set hk (destroy_cases hd).2.2.1)
      | started _ | signalingStopped _ | webSocketClosed _ | signalingJoined _ _ | framesStopped _
      | multimediaJoined _ _ | finished _ => exact .inl rfl

theorem grows_step {s s' : State ι} {a : Action ι} (h : step C s a = some s') : Grows s.clients s'.clients := by
  intro c X hc
  rcases ids_step h with heq | ⟨id, source, hclients, -⟩
  · rw [heq]
    exact hc
  · rw [hclients]
    exact idOf_append hc _

/-- A client that is new after a step is the one of the request that the loop is at. -/
theorem idOf_step {s s' : State ι} {a : Action ι} (h : step C s a = some s') {c : ClientRef} {X : Bytes}
    (hc : idOf s'.clients c = some X) :
    idOf s.clients c = some X ∨ ∃ source, s'.loop = .emplacing X c source := by
  rcases ids_step h with heq | ⟨id, source, hclients, hpc⟩
  · rw [heq] at hc
    exact .inl hc
  · rw [hclients] at hc
    by_cases hlt : c < s.clients.length
    · rw [idOf, List.getElem?_append_left hlt] at hc
      exact .inl hc
    · obtain ⟨k, hk, rfl⟩ := Option.map_eq_some_iff.mp hc
      rw [List.getElem?_append_right (Nat.le_of_not_lt hlt), List.getElem?_singleton] at hk
      split at hk
      · rename_i hzero
        have hlen : c = s.clients.length :=
          Nat.le_antisymm (Nat.sub_eq_zero_iff_le.mp hzero) (Nat.le_of_not_lt hlt)
        obtain rfl := Option.some.inj hk
        exact .inr ⟨source, hlen ▸ hpc⟩
      · exact absurd hk (by simp)

/-! ## What is known of the received messages -/

/-- If the source is a received message, `P` is known of it. -/
def Source.Meets (P : ι → Data → Prop) : Source ι → Prop
  | .inbound tag data => P tag data
  | .client _ => True

/-- The source of the message that the loop is at work on. -/
def Loop.source : Loop ι → Option (Source ι)
  | .emplacing _ _ source | .erasing _ source | .answering _ _ source | .sending _ source => some source
  | .top | .polling | .destroying _ | .joining | .done => none

/-- `P` is known of every received message that the streamer has not done with. -/
structure Sourced (P : ι → Data → Prop) (s : State ι) : Prop where
  onMessage : ∀ item, s.onMessage = .pushing item → item.source.Meets P
  queue : ∀ item ∈ s.signalingQueue.queue, item.source.Meets P
  holding : ∀ item rest, s.collector = .holding item rest → item.source.Meets P
  loop : ∀ source, s.loop.source = some source → source.Meets P

variable {P Q : ι → Data → Prop}

theorem sourced_init : Sourced P (init ι) where
  onMessage := by intro item h; exact absurd h (by simp [init])
  queue := by intro item h; exact absurd h (by simp [init, BlockingQueue.new])
  holding := by intro item rest h; exact absurd h (by simp [init])
  loop := by intro source h; exact absurd h (by simp [init, Loop.source])

theorem Source.Meets.mono {source : Source ι} (h : source.Meets P) (hPQ : ∀ tag data, P tag data → Q tag data) :
    source.Meets Q := by
  cases source with
  | inbound tag data => exact hPQ tag data h
  | client _ => trivial

theorem Sourced.mono {s : State ι} (h : Sourced P s) (hPQ : ∀ tag data, P tag data → Q tag data) :
    Sourced Q s where
  onMessage := fun item hi => (h.onMessage item hi).mono hPQ
  queue := fun item hi => (h.queue item hi).mono hPQ
  holding := fun item rest hi => (h.holding item rest hi).mono hPQ
  loop := fun source hl => (h.loop source hl).mono hPQ

theorem Sourced.push {s : State ι} (h : Sourced P s) {item : Item ι} {q : BlockingQueue (Item ι)}
    (hitem : item.source.Meets P) (hq : s.signalingQueue.tryPush item = some q) :
    ∀ x ∈ q.queue, x.source.Meets P := by
  intro x hx
  rcases BlockingQueue.mem_of_tryPush hq hx with hx | rfl
  · exact h.queue x hx
  · exact hitem

/-- A position of the loop without a message. -/
theorem Sourced.setLoop {s : State ι} (h : Sourced P s) {l : Loop ι} (hl : l.source = none) :
    Sourced P { s with loop := l } :=
  { h with loop := fun source hs => absurd (hl.symm.trans hs) (by simp) }

theorem Sourced.stepLoop {s s' : State ι} {a : LoopAction} (h : Sourced P s) (hst : LoopStepped C s a s') :
    Sourced P s' := by
  cases hst with
  | checked _ => exact h.setLoop (by split <;> rfl)
  | stopped _ | absent _ _ _ | sent _ | joined _ _ => exact h.setLoop rfl
  | threw _ hq _ =>
      obtain ⟨rest, hqueue, rfl⟩ := BlockingQueue.tryPop_some hq
      exact { h with queue := fun x hx => h.queue x (by rw [hqueue]; exact List.mem_cons_of_mem _ hx) }
  | @popped item q verdict _ hq _ =>
      obtain ⟨rest, hqueue, rfl⟩ := BlockingQueue.tryPop_some hq
      have hitem : item.source.Meets P := h.queue item (by rw [hqueue]; exact List.mem_cons_self)
      have hrest : ∀ x ∈ rest, x.source.Meets P := by
        intro x hx
        exact h.queue x (by rw [hqueue]; exact List.mem_cons_of_mem _ hx)
      have hloop : ∀ {l : Loop ι}, l.source = some item.source → ∀ source, l.source = some source →
          source.Meets P := by
        intro l hl source hs
        exact Option.some.inj (hl.symm.trans hs) ▸ hitem
      cases verdict with
      | skip =>
          exact { h with
            queue := hrest
            loop := fun source hs => absurd hs (by simp [dispatch, Loop.source]) }
      | request _ | answer _ _ | erase _ | send _ => exact { h with queue := hrest, loop := hloop rfl }
  | emplaced _ _ _ => exact { h with loop := fun source hs => absurd hs (by simp [Loop.source]) }
  | discarded _ _ _ _ | erased _ _ _ _ | answered _ _ _ =>
      exact { h with loop := fun source hs => absurd hs (by simp [Loop.source]) }
  | @destroyed c client client' _ _ _ =>
      refine { h with loop := fun source hs => ?_ }
      change (if client'.lifetime = .destroyed then Loop.top else .destroying c).source = _ at hs
      split at hs <;> exact absurd hs (by simp [Loop.source])
  | sendThrew _ => exact { h with }

/-- **Knowledge is kept**: what is known of the messages when they are received stays known. -/
theorem sourced_step {s s' : State ι} {a : Action ι} (h : Sourced P s)
    (hrec : ∀ tag data, a = .onMessage (.receive tag data) → P tag data) (hst : step C s a = some s') :
    Sourced P s' := by
  cases (step_cases hst).2 with
  | onMessage hst =>
      cases hst with
      | dropped _ _ => exact h
      | received _ _ =>
          -- the only place where a tag comes in
          refine { h with onMessage := fun item hi => ?_ }
          obtain rfl := OnMessage.pushing.inj hi
          exact hrec _ _ rfl
      | pushed hpc hq =>
          exact { h with
            onMessage := fun item hi => absurd hi (by simp)
            queue := h.push (h.onMessage _ hpc) hq }
  | collector hst =>
      cases hst with
      | checked _ =>
          refine { h with holding := fun item rest hi => ?_ }
          change (if s.doTerm then Collector.done else .locking) = _ at hi
          split at hi <;> exact absurd hi (by simp)
      | locked _ _ _ | passed _ _ _ | unlocked _ =>
          exact { h with holding := fun item rest hi => absurd hi (by simp) }
      | got _ _ _ =>
          refine { h with holding := fun item rest hi => ?_ }
          obtain ⟨rfl, -⟩ := Collector.holding.inj hi
          trivial
      | pushed hpc hq =>
          exact { h with
            queue := h.push (h.holding _ _ hpc) hq
            holding := fun item rest hi => absurd hi (by simp) }
  | loop hst => exact h.stepLoop hst
  | multimedia hst =>
      obtain ⟨m, q, f, rfl⟩ := stepMultimedia_frame hst
      exact { h with }
  | pushData hst =>
      obtain ⟨cs, p, q, rfl⟩ := stepPushData_frame hst
      exact { h with }
  | client _ _ => exact { h with }
  | destructor hst =>
      cases hst with
      | signalingStopped _ => exact { h with queue := fun x hx => h.queue x hx }
      | started _ | webSocketClosed _ | signalingJoined _ _ | framesStopped _ | multimediaJoined _ _
      | finished _ | released _ _ _ | destroyed _ _ _ => exact { h with }

end Streamer

end WebrtcStreamer
