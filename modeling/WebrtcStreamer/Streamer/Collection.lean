import WebrtcStreamer.Lib.JsonText
import WebrtcStreamer.Streamer.Lifetimes
import WebrtcStreamer.Streamer.Provenance

/-!
# `Streamer.Collection` — through the queues, in order and once

A message of a client goes through two queues: a callback pushes it on the client's own
`_signalingQueueOut`, the collector moves it to `_signalingQueue`, and the loop takes it from there. The
messages of the WebSocket share the second queue. The histories of a run say what was pushed, collected,
received and taken.

`Flow` relates what has entered the second queue to what has left it, `Outbox` does so for the queue of one
client. `per_client_order` puts them together.
-/

namespace WebrtcStreamer

namespace Streamer

open Transition Json

variable {ι : Type}

/-! ## Histories -/

/-- The text of a JSON object. -/
def objectText (C : Codec) : Data → Bool
  | .binary _ => false
  | .text message =>
      match C.parse message with
      | some (.object _) => true
      | _ => false

/-- An object-valued text message with which the `onMessage` callback is invoked. -/
def received (C : Codec) (_ : State ι) : Action ι → List (Source ι)
  | .onMessage (.receive tag data) => if objectText C data then [.inbound tag data] else []
  | _ => []

/-- A message that a callback of `c` pushes. -/
def pushed (c : ClientRef) (s : State ι) : Action ι → List Bytes
  | .client d (.push callback) =>
      if d = c then (s.clients[d]?.bind fun client => client.callbacks[callback]?).toList else []
  | _ => []

/-- A message that the collector takes from a client, with the registry it finds the client in. -/
def collected (s : State ι) : Action ι → List (Item ι × ClientsMap)
  | .collector (.get _) =>
      match s.collector with
      | .walking (e :: _) =>
          match s.clients[e.2]?.bind fun client => client.signalingQueueOut.queue.head? with
          | some text => [({ text := text, source := .client e.2 }, s.clientsMap)]
          | none => []
      | _ => []
  | _ => []

/-- An item that the loop takes. -/
def taken (s : State ι) : Action ι → List (Item ι)
  | .loop .pop =>
      match s.loop with
      | .polling => s.signalingQueue.queue.head?.toList
      | _ => []
  | _ => []

/-- The loop takes the front of the queue. -/
theorem taken_front {s : State ι} {item : Item ι} {rest : List (Item ι)} (hpc : s.loop = .polling)
    (hqueue : s.signalingQueue.queue = item :: rest) : taken s (.loop .pop) = [item] := by
  simp only [taken, hpc, hqueue, List.head?_cons, Option.toList_some]

/-! ## What is under way -/

/-- The item that the collector holds between `signalingGet` and `push`. -/
def State.held (s : State ι) : List (Item ι) :=
  match s.collector with
  | .holding item _ => [item]
  | _ => []

/-- The item that the `onMessage` callback is pushing. -/
def State.arriving (s : State ι) : List (Item ι) :=
  match s.onMessage with
  | .pushing item => [item]
  | _ => []

/-- The client that the source names. -/
def Source.client? : Source ι → Option ClientRef
  | .client c => some c
  | .inbound _ _ => none

/-- The source is an object-valued text message. -/
def Source.isObject (C : Codec) : Source ι → Bool
  | .inbound _ data => objectText C data
  | .client _ => false

/-- The items of a client. -/
def clientItems (items : List (Item ι)) : List (Item ι) := items.filter fun item => item.source.client?.isSome

/-- The texts of the items of `c`. -/
def textsOf (c : ClientRef) (items : List (Item ι)) : List Bytes :=
  (items.filter fun item => item.source.client? = some c).map Item.text

/-- The sources of the items that were received as an object. -/
def objectsOf (C : Codec) (items : List (Item ι)) : List (Source ι) :=
  (items.map Item.source).filter fun source => source.isObject C

theorem clientItems_append (l m : List (Item ι)) : clientItems (l ++ m) = clientItems l ++ clientItems m :=
  List.filter_append ..

theorem textsOf_append (c : ClientRef) (l m : List (Item ι)) :
    textsOf c (l ++ m) = textsOf c l ++ textsOf c m := by
  unfold textsOf
  rw [List.filter_append, List.map_append]

theorem objectsOf_append (C : Codec) (l m : List (Item ι)) :
    objectsOf C (l ++ m) = objectsOf C l ++ objectsOf C m := by
  unfold objectsOf
  rw [List.map_append, List.filter_append]

/-- One more message collected. -/
theorem textsOf_snoc (c : ClientRef) (collects : List (Item ι × ClientsMap)) (item : Item ι) (m : ClientsMap) :
    textsOf c ((collects ++ [(item, m)]).map Prod.fst) =
      textsOf c (collects.map Prod.fst) ++ if item.source.client? = some c then [item.text] else [] := by
  rw [List.map_append, textsOf_append]
  congr 1
  by_cases hc : item.source.client? = some c
  · simp [textsOf, hc]
  · simp [textsOf, hc]

/-- Only the clients' items matter for the texts of one client. -/
theorem textsOf_clientItems (c : ClientRef) (items : List (Item ι)) :
    textsOf c (clientItems items) = textsOf c items := by
  unfold textsOf clientItems
  rw [List.filter_filter]
  congr 2
  funext item
  cases item.source <;> simp [Source.client?]

/-! ## Through the signaling queue -/

/-- **What has entered the signaling queue**: what has left it, what is in it, and what is about to enter. A
    queue that has been stopped drops messages and changes no order. -/
structure Flow (C : Codec) (s : State ι) (receives : List (Source ι)) (collects : List (Item ι × ClientsMap))
    (takes : List (Item ι)) : Prop where
  receiving : s.signalingQueue.stopped = false →
    receives = objectsOf C (takes ++ s.signalingQueue.queue) ++ objectsOf C s.arriving
  collecting : s.signalingQueue.stopped = false →
    collects.map Prod.fst = clientItems (takes ++ s.signalingQueue.queue) ++ s.held
  dropping : (clientItems (takes ++ s.signalingQueue.queue) ++ s.held).Sublist (collects.map Prod.fst)

variable {C : Codec} {receives : List (Source ι)} {collects : List (Item ι × ClientsMap)}
  {takes : List (Item ι)}

theorem flow_init : Flow C (init ι) [] [] [] where
  receiving := fun _ => rfl
  collecting := fun _ => rfl
  dropping := List.Sublist.refl _

/-- A step that leaves alone both ends of the queue. -/
theorem Flow.same {s s' : State ι} (hf : Flow C s receives collects takes)
    (hqueue : s'.signalingQueue.queue = s.signalingQueue.queue)
    (hstopped : s'.signalingQueue.stopped = false → s.signalingQueue.stopped = false)
    (harriving : s'.arriving = s.arriving) (hheld : s'.held = s.held) : Flow C s' receives collects takes where
  receiving := by
    intro hrun
    rw [hqueue, harriving]
    exact hf.receiving (hstopped hrun)
  collecting := by
    intro hrun
    rw [hqueue, hheld]
    exact hf.collecting (hstopped hrun)
  dropping := by
    rw [hqueue, hheld]
    exact hf.dropping

/-- Every object gets past the checks of the `onMessage` callback. -/
theorem inbound_of_objectText {data : Data} (h : objectText C data = true) : ∃ text, Inbound C data text := by
  cases data with
  | binary _ => exact absurd h (by simp [objectText])
  | text message =>
      unfold objectText at h
      cases hp : C.parse message with
      | none =>
          simp only [hp] at h
          exact absurd h (by simp)
      | some jsonMsg =>
          simp only [hp] at h
          cases jsonMsg with
          | null | boolean _ | number _ _ | string _ | array _ => exact absurd h (by simp)
          | object members =>
              obtain ⟨marked, ha⟩ : ∃ marked, (Json.object members).assign (str "io_mode")
                  (.string (str "input")) = .ok marked := ⟨_, rfl⟩
              have hvalid : utf8Valid (str "input") = true := by decide
              have hutf8 : marked.utf8 := utf8_assign ha (by decide) (C.parse_utf8 hp) hvalid
              have hwf : marked.wf C.number := wf_assign ha (C.parse_wf hp) trivial
              obtain ⟨text, hd⟩ := Option.isSome_iff_exists.mp ((C.dump_isSome hwf).mpr hutf8)
              refine ⟨text, ?_⟩
              simp only [Inbound, onMessage, safeParse, hp, ha, hd, bind, Except.bind]

theorem Flow.stepOnMessage {s s' : State ι} {a : OnMessageAction ι} (ht : Traced C s)
    (hf : Flow C s receives collects takes) (h : OnMessageStepped C s a s') :
    Flow C s' (receives ++ received C s (.onMessage a)) collects takes := by
  cases h with
  | @dropped tag data hpc hno =>
      have hobject : objectText C data = false := by
        apply Bool.eq_false_iff.mpr
        intro hobject
        obtain ⟨text, hin⟩ := inbound_of_objectText hobject
        exact hno text hin
      simp only [received, hobject, Bool.false_eq_true, if_false, List.append_nil]
      exact hf
  | @received tag data text hpc _ =>
      have harriving : s.arriving = [] := by rw [State.arriving, hpc]
      refine { hf with receiving := ?_ }
      intro hrun
      have hreceives := hf.receiving hrun
      rw [harriving] at hreceives
      rw [hreceives]
      simp only [Streamer.received, objectsOf, State.arriving, Source.isObject, List.map_cons, List.map_nil,
        List.filter_cons, List.filter_nil, List.append_nil]
  | @pushed item q hpc hq =>
      obtain ⟨tag, data, hsource, -⟩ := ht.onMessage item hpc
      have harriving : s.arriving = [item] := by rw [State.arriving, hpc]
      have hnone : clientItems [item] = [] := by simp [clientItems, hsource, Source.client?]
      simp only [Streamer.received, List.append_nil]
      rcases BlockingQueue.tryPush_cases hq with ⟨hstopped, rfl⟩ | ⟨hrun, -, rfl⟩
      · refine { hf with receiving := ?_ }
        intro hrun
        exact absurd (hstopped.symm.trans hrun) (by simp)
      · constructor
        · intro _
          rw [hf.receiving hrun, harriving]
          show _ = objectsOf C (takes ++ (s.signalingQueue.queue ++ [item])) ++ []
          rw [← List.append_assoc, objectsOf_append C (takes ++ _), List.append_nil]
        · intro _
          rw [hf.collecting hrun]
          show _ = clientItems (takes ++ (s.signalingQueue.queue ++ [item])) ++ s.held
          rw [← List.append_assoc, clientItems_append (takes ++ _), hnone, List.append_nil]
        · show (clientItems (takes ++ (s.signalingQueue.queue ++ [item])) ++ s.held).Sublist _
          rw [← List.append_assoc, clientItems_append (takes ++ _), hnone, List.append_nil]
          exact hf.dropping

theorem Flow.stepCollector {s s' : State ι} {a : CollectorAction} (ht : Traced C s)
    (hf : Flow C s receives collects takes) (h : CollectorStepped s a s') :
    Flow C s' receives (collects ++ collected s (.collector a)) takes := by
  cases h with
  | checked hpc =>
      have hheld : s.held = [] := by rw [State.held, hpc]
      simp only [collected, List.append_nil]
      refine hf.same rfl id rfl ?_
      rw [hheld]
      by_cases hterm : s.doTerm = true
      · simp [State.held, hterm]
      · simp [State.held, hterm]
  | locked hpc _ _ | unlocked hpc =>
      have hheld : s.held = [] := by rw [State.held, hpc]
      simp only [collected, List.append_nil]
      refine hf.same rfl id rfl ?_
      rw [hheld]
      rfl
  | @passed expired e rest client q hpc hk hq =>
      -- nothing is in the client's queue
      obtain ⟨hqueue, -⟩ | ⟨text, rest', -, hr, -⟩ := BlockingQueue.tryPopFor_cases hq
      · have hheld : s.held = [] := by rw [State.held, hpc]
        have hcollected : collected s (.collector (.get expired)) = [] := by
          simp only [collected, hpc, hk, Option.bind_some, hqueue, List.head?_nil]
        rw [hcollected, List.append_nil]
        refine hf.same rfl id rfl ?_
        rw [hheld]
        rfl
      · exact absurd hr (by simp)
  | @got expired e rest client text q hpc hk hq =>
      obtain ⟨text', rest', hqueue, hr, -⟩ := (BlockingQueue.tryPopFor_cases hq).resolve_left (by simp)
      obtain rfl := Option.some.inj hr
      have hheld : s.held = [] := by rw [State.held, hpc]
      have hcollected : collected s (.collector (.get expired)) =
          [({ text := text, source := .client e.2 }, s.clientsMap)] := by
        simp only [collected, hpc, hk, Option.bind_some, hqueue, List.head?_cons]
      rw [hcollected]
      constructor
      · exact hf.receiving
      · intro hrun
        rw [List.map_append, hf.collecting hrun, hheld, List.append_nil]
        rfl
      · have hdropping := hf.dropping
        rw [hheld, List.append_nil] at hdropping
        rw [List.map_append]
        exact hdropping.append (List.Sublist.refl _)
  | @pushed item rest q hpc hq =>
      obtain ⟨c, X, hsource, -, -⟩ := ht.holding item rest hpc
      have hheld : s.held = [item] := by rw [State.held, hpc]
      have hone : clientItems [item] = [item] := by simp [clientItems, hsource, Source.client?]
      simp only [collected, List.append_nil]
      rcases BlockingQueue.tryPush_cases hq with ⟨hstopped, rfl⟩ | ⟨hrun, -, rfl⟩
      · constructor
        · exact hf.receiving
        · intro hrun
          exact absurd (hstopped.symm.trans hrun) (by simp)
        · -- the item is dropped
          show (clientItems (takes ++ s.signalingQueue.queue) ++ []).Sublist _
          rw [List.append_nil]
          exact (List.sublist_append_left _ _).trans hf.dropping
      · have hmoved : clientItems (takes ++ (s.signalingQueue.queue ++ [item])) ++ [] =
            clientItems (takes ++ s.signalingQueue.queue) ++ s.held := by
          rw [← List.append_assoc, clientItems_append (takes ++ _), hone, hheld, List.append_nil]
        have hobjects : objectsOf C [item] = [] := by simp [objectsOf, hsource, Source.isObject]
        constructor
        · intro _
          rw [hf.receiving hrun]
          show _ = objectsOf C (takes ++ (s.signalingQueue.queue ++ [item])) ++ _
          rw [← List.append_assoc takes, objectsOf_append C (takes ++ _), hobjects, List.append_nil]
          rfl
        · intro _
          rw [hf.collecting hrun, ← hmoved]
          rfl
        · have hdropping := hf.dropping
          rw [← hmoved] at hdropping
          exact hdropping

/-- The loop takes what has been longest in the queue. -/
theorem Flow.take {s s' : State ι} (hf : Flow C s receives collects takes) {item : Item ι}
    {rest : List (Item ι)} (hqueue : s.signalingQueue.queue = item :: rest)
    (hrest : s'.signalingQueue = { s.signalingQueue with queue := rest })
    (harriving : s'.arriving = s.arriving) (hheld : s'.held = s.held) :
    Flow C s' receives collects (takes ++ [item]) := by
  have hmoved : takes ++ [item] ++ s'.signalingQueue.queue = takes ++ s.signalingQueue.queue := by
    rw [hrest, hqueue, List.append_assoc, List.singleton_append]
  have hstopped : s'.signalingQueue.stopped = s.signalingQueue.stopped := by rw [hrest]
  constructor
  · rw [hstopped, hmoved, harriving]
    exact hf.receiving
  · rw [hstopped, hmoved, hheld]
    exact hf.collecting
  · rw [hmoved, hheld]
    exact hf.dropping

theorem Flow.stepLoop {s s' : State ι} {a : LoopAction} (hf : Flow C s receives collects takes)
    (h : LoopStepped C s a s') : Flow C s' receives collects (takes ++ taken s (.loop a)) := by
  cases h with
  | stopped hpc hq =>
      obtain ⟨hqueue, -⟩ | ⟨item, rest, -, hr, -⟩ := BlockingQueue.tryPop_cases hq
      · simp only [taken, hpc, hqueue, List.head?_nil, Option.toList_none, List.append_nil]
        exact hf.same rfl id rfl rfl
      · exact absurd hr (by simp)
  | @popped item q verdict hpc hq _ =>
      obtain ⟨rest, hqueue, rfl⟩ := BlockingQueue.tryPop_some hq
      rw [taken_front hpc hqueue]
      cases verdict with
      | skip | request _ | answer _ _ | erase _ | send _ => exact hf.take hqueue rfl rfl rfl
  | @threw item q e hpc hq _ =>
      obtain ⟨rest, hqueue, rfl⟩ := BlockingQueue.tryPop_some hq
      rw [taken_front hpc hqueue]
      exact hf.take hqueue rfl rfl rfl
  | checked _ | emplaced _ _ _ | discarded _ _ _ _ | absent _ _ _ | erased _ _ _ _ | destroyed _ _ _
  | answered _ _ _ | sent _ | sendThrew _ | joined _ _ =>
      simp only [taken, List.append_nil]
      exact hf.same rfl id rfl rfl

theorem Flow.step {s s' : State ι} {a : Action ι} (ht : Traced C s) (hf : Flow C s receives collects takes)
    (h : step C s a = some s') :
    Flow C s' (receives ++ received C s a) (collects ++ collected s a) (takes ++ taken s a) := by
  cases (step_cases h).2 with
  | onMessage h =>
      simp only [collected, taken, List.append_nil]
      exact hf.stepOnMessage ht h
  | collector h =>
      simp only [received, taken, List.append_nil]
      exact hf.stepCollector ht h
  | loop h =>
      simp only [received, collected, List.append_nil]
      exact hf.stepLoop h
  | multimedia h =>
      obtain ⟨m, q, f, rfl⟩ := stepMultimedia_frame h
      simp only [received, collected, taken, List.append_nil]
      exact hf.same rfl id rfl rfl
  | pushData h =>
      obtain ⟨cs, p, q, rfl⟩ := stepPushData_frame h
      simp only [received, collected, taken, List.append_nil]
      exact hf.same rfl id rfl rfl
  | client _ _ =>
      simp only [received, collected, taken, List.append_nil]
      exact hf.same rfl id rfl rfl
  | destructor h =>
      simp only [received, collected, taken, List.append_nil]
      cases h with
      | signalingStopped _ => exact hf.same rfl (fun h => absurd h (by simp [BlockingQueue.stop])) rfl rfl
      | started _ | webSocketClosed _ | signalingJoined _ _ | framesStopped _ | multimediaJoined _ _
      | finished _ _ | released _ _ _ | destroyed _ _ _ => exact hf.same rfl id rfl rfl

/-! ## Through the queue of a client -/

/-- **What the callbacks of `c` have pushed**: what the collector has taken, and what it has not. -/
structure Outbox (s : State ι) (c : ClientRef) (pushes : List Bytes) (collects : List (Item ι × ClientsMap)) :
    Prop where
  unborn : s.clients.length ≤ c → pushes = [] ∧ textsOf c (collects.map Prod.fst) = []
  live : ∀ k, s.clients[c]? = some k → k.lifetime = .live →
    k.signalingQueueOut.stopped = false ∧
      pushes = textsOf c (collects.map Prod.fst) ++ k.signalingQueueOut.queue

variable {c : ClientRef} {pushes : List Bytes}

theorem outbox_init (c : ClientRef) : Outbox (init ι) c [] [] where
  unborn := fun _ => ⟨rfl, rfl⟩
  live := by
    intro k hk
    exact absurd hk (by simp [init])

/-- `c` itself changes. -/
theorem Outbox.setSelf {s s' : State ι} {k k' : Client} {pushes' : List Bytes}
    {collects' : List (Item ι × ClientsMap)} (hclients : s'.clients = s.clients.set c k')
    (hk : s.clients[c]? = some k)
    (hlive : k'.lifetime = .live → k'.signalingQueueOut.stopped = false ∧
      pushes' = textsOf c (collects'.map Prod.fst) ++ k'.signalingQueueOut.queue) :
    Outbox s' c pushes' collects' := by
  obtain ⟨hlt, -⟩ := List.getElem?_eq_some_iff.mp hk
  constructor
  · intro hlen
    rw [hclients, List.length_set] at hlen
    exact absurd hlt (Nat.not_lt.mpr hlen)
  · intro m hm
    rw [hclients, List.getElem?_set_self hlt] at hm
    obtain rfl := Option.some.inj hm
    exact hlive

/-- Another client changes, or `c` does without its queue and without coming to life. -/
theorem Outbox.set {s s' : State ι} (ho : Outbox s c pushes collects) {d : ClientRef} {k k' : Client}
    (hclients : s'.clients = s.clients.set d k') (hk : s.clients[d]? = some k)
    (hkept : d = c → k'.lifetime = .live →
      k.lifetime = .live ∧ k'.signalingQueueOut = k.signalingQueueOut) : Outbox s' c pushes collects := by
  by_cases hdc : d = c
  · subst hdc
    refine .setSelf hclients hk fun hlive => ?_
    obtain ⟨hklive, hqueue⟩ := hkept rfl hlive
    rw [hqueue]
    exact ho.live k hk hklive
  · constructor
    · intro hlen
      rw [hclients, List.length_set] at hlen
      exact ho.unborn hlen
    · intro m hm hlive
      rw [hclients, List.getElem?_set_ne hdc] at hm
      exact ho.live m hm hlive

/-- A step that leaves the clients alone. -/
theorem Outbox.same {s s' : State ι} (ho : Outbox s c pushes collects) (hclients : s'.clients = s.clients) :
    Outbox s' c pushes collects where
  unborn := by rw [hclients]; exact ho.unborn
  live := by rw [hclients]; exact ho.live

/-- A new client has pushed nothing. -/
theorem Outbox.append {s s' : State ι} (ho : Outbox s c pushes collects) {id : Bytes}
    (hclients : s'.clients = s.clients ++ [Client.new id]) : Outbox s' c pushes collects := by
  constructor
  · intro hlen
    rw [hclients, List.length_append] at hlen
    exact ho.unborn (Nat.le_of_add_right_le hlen)
  · intro m hm hlive
    rw [hclients] at hm
    by_cases hlt : c < s.clients.length
    · rw [List.getElem?_append_left hlt] at hm
      exact ho.live m hm hlive
    · obtain ⟨hpushes, hcollects⟩ := ho.unborn (Nat.le_of_not_lt hlt)
      have hnew : m = Client.new id := by
        have hmem := List.mem_of_getElem? hm
        rw [List.getElem?_append_right (Nat.le_of_not_lt hlt)] at hm
        exact List.mem_singleton.mp (List.mem_of_getElem? hm)
      subst hnew
      rw [hpushes, hcollects]
      exact ⟨rfl, rfl⟩

theorem Outbox.stepCollector {s s' : State ι} {a : CollectorAction} (ho : Outbox s c pushes collects)
    (h : CollectorStepped s a s') : Outbox s' c pushes (collects ++ collected s (.collector a)) := by
  cases h with
  | checked _ | locked _ _ _ | unlocked _ | pushed _ _ =>
      simp only [collected, List.append_nil]
      exact ho.same rfl
  | @passed expired e rest client q hpc hk hq =>
      obtain ⟨hqueue, -⟩ | ⟨text, rest', -, hr, -⟩ := BlockingQueue.tryPopFor_cases hq
      · simp only [collected, hpc, hk, Option.bind_some, hqueue, List.head?_nil, List.append_nil]
        exact ho.same rfl
      · exact absurd hr (by simp)
  | @got expired e rest client text q hpc hk hq =>
      obtain ⟨text', rest', hqueue, hr, rfl⟩ := (BlockingQueue.tryPopFor_cases hq).resolve_left (by simp)
      obtain rfl := Option.some.inj hr
      simp only [collected, hpc, hk, Option.bind_some, hqueue, List.head?_cons]
      by_cases hec : e.2 = c
      · -- the front of the queue of `c` becomes the last text collected
        subst hec
        have hself : (Source.client e.2 : Source ι).client? = some e.2 := rfl
        refine .setSelf rfl hk fun hlive => ?_
        obtain ⟨hrun, hpushes⟩ := ho.live client hk hlive
        refine ⟨hrun, ?_⟩
        rw [hpushes, textsOf_snoc, if_pos hself, hqueue, List.append_assoc, List.singleton_append]
      · have hother : (Source.client e.2 : Source ι).client? ≠ some c := fun h => hec (Option.some.inj h)
        have hset : Outbox
            { s with
              clients := s.clients.set e.2
                { client with signalingQueueOut := { client.signalingQueueOut with queue := rest' } } }
            c pushes collects := ho.set rfl hk fun hdc => absurd hdc hec
        constructor
        · rw [textsOf_snoc, if_neg hother, List.append_nil]
          exact hset.unborn
        · rw [textsOf_snoc, if_neg hother, List.append_nil]
          exact hset.live

theorem Outbox.stepLoop {s s' : State ι} {a : LoopAction} (ho : Outbox s c pushes collects)
    (h : LoopStepped C s a s') : Outbox s' c pushes collects := by
  cases h with
  | @popped item q verdict _ _ _ =>
      cases verdict with
      | request id => exact ho.append rfl
      | skip | answer _ _ | erase _ | send _ => exact ho.same rfl
  | discarded _ _ _ hk | erased _ _ _ hk => exact ho.set rfl hk fun _ hlive => absurd hlive (by simp)
  | destroyed _ hk hd => exact ho.set rfl hk fun _ hlive => absurd hlive (destroy_cases hd).2.1
  | answered _ hk _ => exact ho.set rfl hk fun _ hlive => ⟨hlive, rfl⟩
  | checked _ | stopped _ _ | threw _ _ _ | emplaced _ _ _ | absent _ _ _ | sent _ | sendThrew _ | joined _ _ =>
      exact ho.same rfl

theorem Outbox.stepClient {s : State ι} {d : ClientRef} {k k' : Client} {a : ClientAction} {f : Option Fault}
    (ho : Outbox s c pushes collects) (hk : s.clients[d]? = some k) (h : ClientStepped C k a k' f) :
    Outbox { s with clients := s.clients.set d k', fault := f } c (pushes ++ pushed c s (.client d a))
      collects := by
  cases h with
  | checked _ | stopped _ _ | popped _ _ | applied _ | threw _ | stateChanged _ | gatheringStateChanged _ =>
      simp only [pushed, List.append_nil]
      exact ho.set rfl hk fun _ hlive => ⟨hlive, rfl⟩
  | @pushed callback text q hl htext hq =>
      by_cases hdc : d = c
      · subst hdc
        simp only [Streamer.pushed, hk, Option.bind_some, htext, Option.toList_some, if_true]
        refine .setSelf rfl hk fun hlive => ?_
        obtain ⟨hrun, hpushes⟩ := ho.live k hk hlive
        rcases BlockingQueue.tryPush_cases hq with ⟨hstopped, rfl⟩ | ⟨-, -, rfl⟩
        · -- the queue of a live client has not been stopped
          exact absurd (hstopped.symm.trans hrun) (by simp)
        · refine ⟨hrun, ?_⟩
          rw [hpushes, List.append_assoc]
      · simp only [Streamer.pushed, if_neg hdc, List.append_nil]
        exact ho.set rfl hk fun hd => absurd hd hdc

theorem Outbox.step {s s' : State ι} {a : Action ι} (ho : Outbox s c pushes collects)
    (h : step C s a = some s') : Outbox s' c (pushes ++ pushed c s a) (collects ++ collected s a) := by
  cases (step_cases h).2 with
  | onMessage h =>
      simp only [pushed, collected, List.append_nil]
      apply ho.same
      cases h <;> rfl
  | collector h =>
      simp only [pushed, List.append_nil]
      exact ho.stepCollector h
  | loop h =>
      simp only [pushed, collected, List.append_nil]
      exact ho.stepLoop h
  | multimedia h =>
      obtain ⟨m, q, f, rfl⟩ := stepMultimedia_frame h
      simp only [pushed, collected, List.append_nil]
      exact ho.same rfl
  | pushData h =>
      obtain ⟨cs, p, q, rfl⟩ := stepPushData_frame h
      simp only [pushed, collected, List.append_nil]
      exact ho.same rfl
  | client hk hc =>
      simp only [collected, List.append_nil]
      exact ho.stepClient hk hc
  | destructor h =>
      simp only [pushed, collected, List.append_nil]
      cases h with
      | released _ _ hk => exact ho.set rfl hk fun _ hlive => absurd hlive (by simp)
      | destroyed _ hk hd => exact ho.set rfl hk fun _ hlive => absurd hlive (destroy_cases hd).2.1
      | started _ | signalingStopped _ | webSocketClosed _ | signalingJoined _ _ | framesStopped _
      | multimediaJoined _ _ | finished _ _ => exact ho.same rfl

/-! ## Every run -/

/-- The invariants, along a run. -/
theorem exec_collection (as : List (Action ι)) (s : State ι) (h : exec (step C) (init ι) as = some s) :
    Sane s ∧ Traced C s ∧ Flow C s (shown C (received C) as) (shown C collected as) (shown C taken as) ∧
      ∀ c, Outbox s c (shown C (pushed c) as) (shown C collected as) := by
  refine exec_induction (motive := fun as s => Sane s ∧ Traced C s ∧
    Flow C s (shown C (received C) as) (shown C collected as) (shown C taken as) ∧
    ∀ c, Outbox s c (shown C (pushed c) as) (shown C collected as))
    ⟨sane_init, traced_init, flow_init, outbox_init⟩ ?_ as s h
  rintro as s a s' has ⟨hs, ht, hf, ho⟩ hst
  simp only [shown, trace_snoc has]
  exact ⟨sane_step hs hst, traced_step hs ht hst, hf.step ht hst, fun c => (ho c).step hst⟩

/-- What is collected is a registered client's. -/
theorem Sane.collected_registered {s : State ι} (hs : Sane s) {a : Action ι} {p : Item ι × ClientsMap}
    (hp : p ∈ collected s a) :
    ∃ c X, p.1.source = .client c ∧ p.2 = s.clientsMap ∧ s.clientsMap.lookup X = some c := by
  unfold collected at hp
  split at hp
  · split at hp
    · rename_i e rest hpc
      split at hp
      · obtain rfl := List.mem_singleton.mp hp
        have hreg := hs.collecting (e :: rest) (by rw [hpc]; rfl) e List.mem_cons_self
        exact ⟨e.2, e.1, rfl, rfl, hreg⟩
      · exact absurd hp (by simp)
    · exact absurd hp (by simp)
  · exact absurd hp (by simp)

/-- **The end of the collection.** Nothing of a client that is gone is collected. -/
theorem not_collected_of_gone {s t : State ι} {as : List (Action ι)} {c : ClientRef} (hs : Sane s)
    (hg : Gone s c) (h : exec (step C) s as = some t) :
    ∀ p ∈ trace (step C) collected s as, p.1.source ≠ .client c := by
  refine forall_mem_trace (I := fun u => Sane u ∧ Gone u c) ?_ ?_ as s t ⟨hs, hg⟩ h
  · rintro u a u' ⟨hsu, hgu⟩ hst
    exact ⟨sane_step hsu hst, gone_step hst hgu⟩
  · rintro u a u' ⟨hsu, hgu⟩ - p hp hc
    obtain ⟨d, X, hd, -, hX⟩ := hsu.collected_registered hp
    obtain rfl := Source.client.inj (hd.symm.trans hc)
    exact hgu.1 (visits_iff.mpr ⟨X, hX⟩)

/-- **Order and exactly-once collection.** In every run, for every client: as long as it is registered and the
    signaling queue has not been stopped, the messages that its callbacks have pushed are, in order, the ones
    that the loop has taken, the ones in the signaling queue, at most one in the collector's hands and the ones
    in the client's queue; once it has left the registry nothing of it is collected any more. The objects
    received on the WebSocket are, in order, the ones that the loop has taken, the ones in the signaling queue
    and at most one that the callback is pushing. -/
theorem per_client_order {as : List (Action ι)} {s : State ι} (h : exec (step C) (init ι) as = some s)
    (c : ClientRef) :
    (Visits c s.clientsMap → s.signalingQueue.stopped = false →
      ∃ client, s.clients[c]? = some client ∧
        shown C (pushed c) as = textsOf c (shown C taken as) ++ textsOf c s.signalingQueue.queue ++
          textsOf c s.held ++ client.signalingQueueOut.queue) ∧
    s.held.length ≤ 1 ∧
    (∀ pre mid post s₁ s₂, as = pre ++ mid ++ post → exec (step C) (init ι) pre = some s₁ →
      exec (step C) s₁ mid = some s₂ → Visits c s₁.clientsMap → ¬ Visits c s₂.clientsMap →
      ∀ p ∈ trace (step C) collected s₂ post, p.1.source ≠ .client c) ∧
    (s.signalingQueue.stopped = false →
      shown C (received C) as = objectsOf C (shown C taken as) ++ objectsOf C s.signalingQueue.queue ++
        objectsOf C s.arriving) ∧
    s.arriving.length ≤ 1 := by
  obtain ⟨hs, -, hf, ho⟩ := exec_collection as s h
  refine ⟨?_, ?_, ?_, ?_, ?_⟩
  · intro hv hrun
    obtain ⟨X, hX⟩ := visits_iff.mp hv
    obtain ⟨client, hk, -, hlive⟩ := hs.registered X c hX
    obtain ⟨-, hpushed⟩ := (ho c).live client hk hlive
    refine ⟨client, hk, ?_⟩
    rw [hpushed, hf.collecting hrun, textsOf_append, textsOf_clientItems, textsOf_append]
  · unfold State.held
    split <;> simp
  · rintro pre mid post s₁ s₂ rfl hpre hmid hv hremoved
    have hs₁ := exec_sane hpre
    have hrun := exec_append_some.mpr ⟨s₁, hpre, hmid⟩
    obtain ⟨t, ht, hpost⟩ := exec_append_some.mp h
    obtain rfl := Option.some.inj (hrun.symm.trans ht)
    have hgone := gone_of_removed hs₁ hv hmid hremoved
    exact not_collected_of_gone (exec_sane hrun) hgone hpost
  · intro hrun
    rw [hf.receiving hrun, objectsOf_append]
  · unfold State.arriving
    split <;> simp

/-- A client under `b` reports three states, and the collector is at the second of its messages. -/
def secondHeld : List (Action Unit) :=
  [.onMessage (.receive () (.text (str "\x7b\"id\":\"b\",\"type\":\"request\"\x7d"))), .onMessage .push,
    .loop .check, .loop .pop, .loop .emplace,
    .client 0 (.stateChange .disconnected), .client 0 (.push 0), .client 0 (.stateChange .failed),
    .client 0 (.push 0), .client 0 (.stateChange .closed), .client 0 (.push 0),
    .collector .check, .collector (.lock [⟨str "b", 0⟩]), .collector (.get false), .collector .push,
    .collector .unlock, .collector .check, .collector (.lock [⟨str "b", 0⟩]), .collector (.get false)]

theorem per_client_order_second_held :
    ∃ s ∈ exec (step JsonText.text) (init Unit) secondHeld,
      (shown JsonText.text (pushed 0) secondHeld).length = 3 ∧
        ∃ client, s.clients[0]? = some client ∧
          shown JsonText.text (pushed 0) secondHeld =
            textsOf 0 (shown JsonText.text taken secondHeld) ++ textsOf 0 s.signalingQueue.queue ++
              textsOf 0 s.held ++ client.signalingQueueOut.queue := by
  have hrun : ∃ s ∈ exec (step JsonText.text) (init Unit) secondHeld,
      Visits 0 s.clientsMap ∧ s.signalingQueue.stopped = false := by decide +kernel
  obtain ⟨s, hs, hv, hstopped⟩ := hrun
  exact ⟨s, hs, by decide +kernel, (per_client_order hs 0).1 hv hstopped⟩

end Streamer

end WebrtcStreamer
