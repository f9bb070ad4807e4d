import WebrtcStreamer.Lib.JsonText
import WebrtcStreamer.Relay.Authenticity
import WebrtcStreamer.Streamer.Provenance
import WebrtcStreamer.System.Composition

/-!
# `System.Routing` — who can open a session, and who gets its offer

The streamer takes the `id` of a received message for the sender's. The relay forwards the messages of
unregistered senders with the id of the destination; but what it forwards to the streamer was for `server`,
so a message with any other id got that id from the relay, and its sender is registered under it.

`Linked` carries this through both queues and the network between them. `routing` is the result: sessions
and answers for `X` come from the connection registered as `X`, and offers for `X` go to it.
-/

namespace WebrtcStreamer

namespace System

open Transition Json

variable {C : Codec}

/-! ## What the relay forwards -/

/-- The sender is registered under `X` when the relay handles its payload. -/
def Relaying.RegisteredAs (origin : Relaying) (X : Bytes) : Prop :=
  ∃ k, origin.clients.lookup X = some k ∧ k.wsi = origin.sender

/-- The payload is this message: of this type, for the streamer, from a connection registered under `X`. -/
structure Relaying.Asks (C : Codec) (origin : Relaying) (X type : Bytes) (message : Json) : Prop where
  registered : origin.RegisteredAs X
  parsed : C.parse origin.payload = some message
  id : message.HasString (str "id") (str "server")
  type : message.HasString (str "type") type

/-- The relay made the data of one of the payloads it received: a message for `server`, with the sender's id
    if the sender was found. -/
structure Forwarded (C : Codec) (history : List Relaying) (origin : Relaying) (data : Streamer.Data) :
    Prop where
  received : origin ∈ history
  sender : ∀ X, Relay.senderId origin.clients origin.sender = some X → origin.RegisteredAs X
  stamped : ∃ message stamped text, data = .text text ∧ C.parse origin.payload = some message ∧
    message.HasString (str "id") (str "server") ∧
    Relay.stampSender origin.clients origin.sender message = .ok stamped ∧ C.dump stamped = some text

theorem Forwarded.mono {history history' : List Relaying} {origin : Relaying} {data : Streamer.Data}
    (h : Forwarded C history origin data) (hsub : history ⊆ history') : Forwarded C history' origin data :=
  { h with received := hsub h.received }

/-- **A forwarded message with the id `X`**, unless that is the streamer's own, is from a sender registered
    under `X`, and all its other members are the sender's. -/
theorem Forwarded.registered {history : List Relaying} {origin : Relaying} {text X : Bytes} {jsonMsg : Json}
    (h : Forwarded C history origin (.text text)) (hp : C.parse text = some jsonMsg)
    (hid : jsonMsg.HasString (str "id") X) (hX : X ≠ str "server") :
    origin.RegisteredAs X ∧ ∃ message, C.parse origin.payload = some message ∧
      message.HasString (str "id") (str "server") ∧
      ∀ key, key ≠ str "id" → jsonMsg.find key = message.find key := by
  obtain ⟨message, stamped, text', heq, hparsed, hserver, hs, hd⟩ := h.stamped
  obtain rfl := Streamer.Data.text.inj heq
  unfold Relay.stampSender at hs
  cases hsender : Relay.senderId origin.clients origin.sender with
  | none =>
      -- forwarded as it is: the id is the streamer's
      rw [hsender] at hs
      obtain rfl := Except.ok.inj hs
      obtain rfl := Option.some.inj (hp.symm.trans (C.parse_dump (C.parse_wf hparsed) hd))
      have hXs : X = str "server" := Json.string.inj (Option.some.inj (hid.symm.trans hserver))
      exact absurd hXs hX
  | some Y =>
      -- forwarded with the id of its sender
      rw [hsender] at hs
      obtain rfl := Option.some.inj (hp.symm.trans (C.read_back hparsed hs trivial hd))
      have hXY : X = Y := Json.string.inj (Option.some.inj (hid.symm.trans (find_assign_self hs)))
      refine ⟨h.sender X (hXY ▸ hsender), message, hparsed, hserver, fun key hkey => ?_⟩
      exact find_assign_ne hs hkey

/-! ## What the streamer sends -/

/-- The text is the description that a client has sent to be forwarded. -/
def Offered (C : Codec) (clients : List Streamer.Client) (out : Outbound) : Prop :=
  ∃ c id type sdp, out.source = .client c ∧ Streamer.idOf clients c = some id ∧
    C.dump (Streamer.descriptionMessage id type sdp) = some out.text

theorem Offered.grow {clients clients' : List Streamer.Client} {out : Outbound} (h : Offered C clients out)
    (hg : Streamer.Grows clients clients') : Offered C clients' out := by
  obtain ⟨c, id, type, sdp, hsrc, hid, hd⟩ := h
  exact ⟨c, id, type, sdp, hsrc, hg c id hid, hd⟩

theorem sent_offered {s : Streamer.State Relaying} {a : Streamer.Action Relaying} (ht : Streamer.Traced C s) :
    ∀ out ∈ sent s a, Offered C s.clients out := by
  intro out hout
  unfold sent at hout
  split at hout
  · split at hout
    · rename_i text source hpc
      obtain rfl := List.mem_singleton.mp hout
      have hloop := ht.loop
      rw [hpc] at hloop
      exact hloop
    · exact absurd hout (by simp)
  · exact absurd hout (by simp)

/-- **Where an offer goes**: to the connection registered under the id of its client, if there is one. -/
theorem Offered.written {clients : List Streamer.Client} {out : Outbound} (h : Offered C clients out)
    {c : Streamer.ClientRef} {X : Bytes} (hc : out.source = .client c) (hX : Streamer.idOf clients c = some X)
    (s : Relay.State) (wsi : Relay.Wsi) :
    ∀ w ∈ Relay.writes C s (.receive wsi out.text), ∃ k, s.clients.lookup X = some k ∧ w.wsi = k.wsi := by
  obtain ⟨c', id, type, sdp, hc', hid, hd⟩ := h
  obtain rfl := Streamer.Source.client.inj (hc.symm.trans hc')
  obtain rfl := Option.some.inj (hX.symm.trans hid)
  have hparsed := C.parse_dump (Streamer.wf_descriptionMessage _ X type sdp) hd
  intro w hw
  change w ∈ Relay.receive C s.clients wsi out.text at hw
  by_cases ha : ∃ message destId dest, Relay.Addressed C s.clients out.text message destId dest
  · obtain ⟨message, destId, dest, ha⟩ := ha
    obtain ⟨stamped, hs⟩ := Relay.stampSender_ok s.clients wsi ha.id
    rw [Relay.receive_addressed ha hs, Option.mem_toList, Option.map_eq_some_iff] at hw
    obtain ⟨text, -, rfl⟩ := hw
    obtain rfl := Option.some.inj (hparsed.symm.trans ha.parsed)
    have hdest : X = destId := Json.string.inj (Option.some.inj ha.id)
    exact ⟨dest, hdest ▸ ha.registered, rfl⟩
  · rw [Relay.receive_unaddressed fun m d k hk => ha ⟨m, d, k, hk⟩] at hw
    exact absurd hw (by simp)

/-! ## The invariant -/

structure Linked (C : Codec) (history : List Relaying) (s : State) : Prop where
  relay : Relay.Inv s.relay
  own : ∀ wsi ∈ s.own, s.relay.conns.lookup wsi = some (some (str "server"))
  toStreamer : ∀ m ∈ s.toStreamer, Forwarded C history m.origin (.text m.text)
  sane : Streamer.Sane s.streamer
  traced : Streamer.Traced C s.streamer
  sourced : Streamer.Sourced (Forwarded C history) s.streamer
  toRelay : ∀ out ∈ s.toRelay, Offered C s.streamer.clients out

theorem linked_init : Linked C [] init where
  relay := Relay.inv_init
  own := by intro wsi h; exact absurd h (by simp [init])
  toStreamer := by intro m h; exact absurd h (by simp [init])
  sane := Streamer.sane_init
  traced := Streamer.traced_init
  sourced := Streamer.sourced_init
  toRelay := by intro out h; exact absurd h (by simp [init])

/-! ## Events at the relay -/

/-- An event hands its payload to the registry that it leaves behind. -/
theorem relaying_cases {s s' : Relay.State} {e : Relay.Event} {origin : Relaying}
    (h : Relay.step C s e = some s') (ho : relaying s e = some origin) :
    s'.clients = origin.clients ∧
      Relay.writes C s e = Relay.receive C origin.clients origin.sender origin.payload := by
  cases Relay.step_cases h with
  | established _ | receive _ =>
      obtain rfl := Option.some.inj ho
      exact ⟨rfl, rfl⟩
  | closed _ | reorder _ => exact absurd ho (by simp [relaying])

/-- What an event writes to connections under `server` is made of its payload. -/
theorem forwarded_sound {s : State} {e : Relay.Event} {relay : Relay.State}
    (h : Relay.step C s.relay e = some relay) (hi : Relay.Inv relay)
    (hown : ∀ wsi ∈ s.own, relay.conns.lookup wsi = some (some (str "server"))) :
    ∀ m ∈ forwarded C s e, Forwarded C (relaying s.relay e).toList m.origin (.text m.text) := by
  intro m hm
  unfold forwarded at hm
  split at hm
  · rename_i origin ho
    obtain ⟨hclients, hwrites⟩ := relaying_cases h ho
    rw [hwrites] at hm
    obtain ⟨w, hw, rfl⟩ := List.mem_map.mp hm
    obtain ⟨hw, hwown⟩ := List.mem_filter.mp hw
    have hserver := hown w.wsi (List.contains_iff_mem.mp hwown)
    have hlookup : ∀ {X : Bytes}, relay.clients.lookup X = origin.clients.lookup X := by rw [hclients]; simp
    refine ⟨by rw [ho]; simp, fun X hX => ?_, ?_⟩
    · rw [← hclients] at hX
      obtain ⟨k, hk, hkw⟩ := hi.senderId_iff.mp hX
      exact ⟨k, hlookup ▸ hk, hkw⟩
    · by_cases ha : ∃ message destId dest, Relay.Addressed C origin.clients origin.payload message destId dest
      · obtain ⟨message, destId, dest, ha⟩ := ha
        obtain ⟨stamped, hs⟩ := Relay.stampSender_ok origin.clients origin.sender ha.id
        rw [Relay.receive_addressed ha hs, Option.mem_toList, Option.map_eq_some_iff] at hw
        obtain ⟨text, hd, rfl⟩ := hw
        -- the destination is registered under the streamer's id
        have hdest := (hi destId dest (hlookup.trans ha.registered)).2
        have hid : destId = str "server" := Option.some.inj (Option.some.inj (hdest.symm.trans hserver))
        exact ⟨message, stamped, text, rfl, ha.parsed, hid ▸ ha.id, hs, hd⟩
      · rw [Relay.receive_unaddressed fun m d k hk => ha ⟨m, d, k, hk⟩] at hw
        exact absurd hw (by simp)
  · exact absurd hm (by simp)

/-- Connections that an event does not open or close stay as they are. -/
theorem conns_step {s s' : Relay.State} {e : Relay.Event} {wsi : Relay.Wsi} (h : Relay.step C s e = some s')
    (hopen : wsi ∈ s.conns) (hclosed : e ≠ .closed wsi) : s'.conns.lookup wsi = s.conns.lookup wsi := by
  cases Relay.step_cases h with
  | established hw =>
      refine AList.lookup_insert_ne ?_
      rintro rfl
      exact hw hopen
  | closed _ =>
      refine AList.lookup_erase_ne ?_
      rintro rfl
      exact hclosed rfl
  | receive _ | reorder _ => rfl

/-- An event at the relay, whichever connections are the streamer's afterwards. -/
theorem Linked.relayEvent {history : List Relaying} {s s' : State} {e : Relay.Event} {own : List Relay.Wsi}
    {toRelay : List Outbound} (hl : Linked C history s)
    (hown : ∀ relay, Relay.step C s.relay e = some relay →
      ∀ wsi ∈ own, relay.conns.lookup wsi = some (some (str "server")))
    (hout : ∀ out ∈ toRelay, out ∈ s.toRelay)
    (h : relayEvent C { s with own := own, toRelay := toRelay } e = some s') :
    Linked C (history ++ (relaying s.relay e).toList) s' := by
  obtain ⟨relay, hr, rfl⟩ := relayEvent_cases h
  have hi := Relay.inv_step hl.relay hr
  have hnew := forwarded_sound hr hi (hown relay hr)
  have hold : history ⊆ history ++ (relaying s.relay e).toList := List.subset_append_left _ _
  exact {
    relay := hi
    own := hown relay hr
    toStreamer := by
      intro m hm
      rcases List.mem_append.mp hm with hm | hm
      · exact (hl.toStreamer m hm).mono hold
      · exact (hnew m hm).mono (List.subset_append_right _ _)
    sane := hl.sane
    traced := hl.traced
    sourced := hl.sourced.mono fun _ _ hf => hf.mono hold
    toRelay := fun out ho => hl.toRelay out (hout out ho) }

/-- The streamer's connections while it opens and closes none. -/
theorem Linked.own_kept {history : List Relaying} {s : State} {e : Relay.Event} {relay : Relay.State}
    (hl : Linked C history s) (h : Relay.step C s.relay e = some relay) {own : List Relay.Wsi}
    (hsub : own ⊆ s.own) (hclosed : ∀ wsi ∈ own, e ≠ .closed wsi) :
    ∀ wsi ∈ own, relay.conns.lookup wsi = some (some (str "server")) := by
  intro wsi hw
  have hserver := hl.own wsi (hsub hw)
  have hopen : wsi ∈ s.relay.conns := AList.lookup_isSome.mp (by rw [hserver]; rfl)
  rw [conns_step h hopen (hclosed wsi hw)]
  exact hserver

/-! ## Steps of the streamer -/

/-- A step of the streamer, which may receive what the relay has forwarded. -/
theorem Linked.streamer {history : List Relaying} {s : State} {a : Streamer.Action Relaying}
    {streamer : Streamer.State Relaying} (hl : Linked C history s)
    (hrec : ∀ tag data, a = .onMessage (.receive tag data) → Forwarded C history tag data)
    (h : Streamer.step C s.streamer a = some streamer) : Linked C history { s with streamer := streamer } where
  relay := hl.relay
  own := hl.own
  toStreamer := hl.toStreamer
  sane := Streamer.sane_step hl.sane h
  traced := Streamer.traced_step hl.sane hl.traced h
  sourced := Streamer.sourced_step hl.sourced hrec h
  toRelay := fun out ho => (hl.toRelay out ho).grow (Streamer.grows_step h)

/-- What a step of the system is to the streamer. -/
theorem Linked.streamer_step {history : List Relaying} {s s' : State} {a : Action} (hl : Linked C history s)
    (h : step C s a = some s') : Linked C history { s with streamer := s'.streamer } := by
  cases step_cases h with
  | peer _ h | connected h | disconnected h | relayed _ h =>
      obtain ⟨relay, -, rfl⟩ := relayEvent_cases h
      exact hl
  | @delivered i m streamer hm hst =>
      refine hl.streamer (fun tag data heq => ?_) hst
      obtain ⟨rfl, rfl⟩ := Streamer.OnMessageAction.receive.inj (Streamer.Action.onMessage.inj heq)
      exact hl.toStreamer m (List.mem_of_getElem? hm)
  | streamer hrec hst => exact hl.streamer (fun tag data heq => absurd hrec (by simp [heq, receives])) hst

/-- A client that is new after a step is the one of the request that the loop is at. -/
theorem idOf_step {s s' : State} {a : Action} (h : step C s a = some s') {c : Streamer.ClientRef} {X : Bytes}
    (hc : Streamer.idOf s'.streamer.clients c = some X) :
    Streamer.idOf s.streamer.clients c = some X ∨ ∃ source, s'.streamer.loop = .emplacing X c source := by
  cases step_cases h with
  | peer _ h | connected h | disconnected h | relayed _ h =>
      obtain ⟨relay, -, rfl⟩ := relayEvent_cases h
      exact .inl hc
  | delivered _ hst | streamer _ hst => exact Streamer.idOf_step hst hc

/-! ## Steps of the system -/

theorem Linked.step {history : List Relaying} {s s' : State} {a : Action} (hl : Linked C history s)
    (h : step C s a = some s') : Linked C (history ++ relayed s a) s' := by
  have hs := hl.streamer_step h
  cases step_cases h with
  | @peer e s' hf h =>
      -- nobody else closes the streamer's connections
      refine hl.relayEvent (fun relay hr => hl.own_kept hr (List.Subset.refl _) ?_) (fun _ ho => ho) h
      rintro wsi hw rfl
      rw [foreign, List.contains_iff_mem.mpr hw] at hf
      exact absurd hf (by simp)
  | @connected wsi s' h =>
      refine hl.relayEvent (fun relay hr w hw => ?_) (fun _ ho => ho) h
      rcases List.mem_cons.mp hw with rfl | hw
      · -- its path names the id that it takes
        cases Relay.step_cases hr with
        | established _ =>
            show (s.relay.conns.insert w (Relay.clientId (str "/server"))).lookup w = _
            rw [AList.lookup_insert]
            decide
      · exact hl.own_kept hr (List.Subset.refl _) (by simp) w hw
  | @disconnected wsi s' h =>
      -- its texts under way stay under way
      refine hl.relayEvent (fun relay hr => hl.own_kept hr (fun w hw => List.mem_of_mem_filter hw) ?_)
        (fun _ ho => ho) h
      rintro w hw heq
      obtain rfl := Relay.Event.closed.inj heq
      exact absurd (List.mem_filter.mp hw).2 (by simp)
  | @relayed i wsi out s' hout h =>
      have hev : relayed s (.relay i wsi) = (relaying s.relay (.receive wsi out.text)).toList := by
        rw [System.relayed, event, hout]
        rfl
      rw [hev]
      exact hl.relayEvent (fun relay hr => hl.own_kept hr (List.Subset.refl _) (by simp))
        (fun _ ho => List.mem_of_mem_eraseIdx ho) h
  | @delivered i m streamer hm hst =>
      rw [show relayed s (.deliver i) = [] from rfl, List.append_nil]
      exact { hs with toStreamer := fun x hx => hl.toStreamer x (List.mem_of_mem_eraseIdx hx) }
  | @streamer a streamer hrec hst =>
      rw [show relayed s (.streamer a) = [] from rfl, List.append_nil]
      refine { hs with toRelay := fun out ho => ?_ }
      rcases List.mem_append.mp ho with ho | ho
      · exact hs.toRelay out ho
      · exact (sent_offered hl.traced out ho).grow (Streamer.grows_step hst)

theorem exec_linked : ∀ (as : List Action) (s : State), exec (step C) init as = some s →
    Linked C (trace (step C) relayed init as) s := by
  refine exec_induction linked_init fun as s a s' has hl hst => ?_
  rw [trace_snoc has]
  exact hl.step hst

/-! ## Sessions, answers and offers -/

/-- What the streamer does under an id that a received message named, it does for a sender registered under
    that id. -/
theorem asked {history : List Relaying} {source : Streamer.Source Relaying} {X type : Bytes} {jsonMsg : Json}
    (hs : source.Meets (Forwarded C history)) (hp : Streamer.FromPeer C X jsonMsg source)
    (htype : jsonMsg.HasString (str "type") type) (hX : X ≠ str "server") :
    ∃ origin ∈ history, ∃ data message, source = .inbound origin data ∧ origin.Asks C X type message ∧
      ∀ key, key ≠ str "id" → jsonMsg.find key = message.find key := by
  obtain ⟨origin, text, rfl, hparse, hid⟩ := hp
  have hf : Forwarded C history origin (.text text) := hs
  obtain ⟨hreg, message, hparsed, hserver, hother⟩ := hf.registered hparse hid hX
  have hmtype : message.HasString (str "type") type := (hother (str "type") (by decide)).symm.trans htype
  exact ⟨origin, hf.received, _, message, rfl, ⟨hreg, hparsed, hserver, hmtype⟩, hother⟩

/-- **Routing.** In every run of the relay and the streamer, for every id `X` but the streamer's own: a
    client that is created for `X` is asked for, and an answer that is pushed into the client registered
    under `X` is given, by a payload from a connection registered as `X` when the relay received it; and
    what a client for `X` has sent is written, if the relay forwards it, to the connection registered as
    `X` at that time. -/
theorem routing {as : List Action} {s : State} (h : exec (step C) init as = some s) {X : Bytes}
    (hX : X ≠ str "server") :
    (∀ a s', step C s a = some s' → ∀ c, Streamer.idOf s.streamer.clients c = none →
      Streamer.idOf s'.streamer.clients c = some X →
      ∃ origin ∈ trace (step C) relayed init as, ∃ data message,
        s'.streamer.loop = .emplacing X c (.inbound origin data) ∧ origin.Asks C X (str "request") message) ∧
    (∀ c sdp source, s.streamer.loop = .answering c sdp source → s.streamer.clientsMap.lookup X = some c →
      ∃ origin ∈ trace (step C) relayed init as, ∃ data message, source = .inbound origin data ∧
        origin.Asks C X (str "answer") message ∧ message.HasString (str "sdp") sdp) ∧
    ∀ out ∈ s.toRelay, ∃ c id, out.source = .client c ∧ Streamer.idOf s.streamer.clients c = some id ∧
      (id = X → ∀ wsi, ∀ w ∈ Relay.writes C s.relay (.receive wsi out.text),
        ∃ k, s.relay.clients.lookup X = some k ∧ w.wsi = k.wsi) := by
  have hl := exec_linked as s h
  refine ⟨?_, ?_, ?_⟩
  · intro a s' hst c hnone hc
    have hl' := hl.streamer_step hst
    obtain ⟨source, hpc⟩ := (idOf_step hst hc).resolve_left (by rw [hnone]; simp)
    have hloop := hl'.traced.loop
    change Streamer.LoopTraced C _ _ s'.streamer.loop at hloop
    rw [hpc] at hloop
    obtain ⟨jsonMsg, hp, htype⟩ := hloop
    have hmeets := hl'.sourced.loop source (by rw [hpc]; rfl)
    obtain ⟨origin, hmem, data, message, rfl, hasks, -⟩ := asked hmeets hp htype hX
    exact ⟨origin, hmem, data, message, hpc, hasks⟩
  · intro c sdp source hpc hlookup
    have hloop := hl.traced.loop
    rw [hpc] at hloop
    obtain ⟨id, jsonMsg, hp, htype, hsdp, hid⟩ := hloop
    -- the client is registered under one id only
    have hidX : id = X := (hl.sane.registered id c hid).id_unique (hl.sane.registered X c hlookup)
    subst hidX
    have hmeets := hl.sourced.loop source (by rw [hpc]; rfl)
    obtain ⟨origin, hmem, data, message, hsrc, hasks, hother⟩ := asked hmeets hp htype hX
    exact ⟨origin, hmem, data, message, hsrc, hasks, (hother (str "sdp") (by decide)).symm.trans hsdp⟩
  · intro out ho
    obtain ⟨c, id, type, sdp, hsrc, hid, hd⟩ := hl.toRelay out ho
    refine ⟨c, id, hsrc, hid, ?_⟩
    rintro rfl wsi
    exact (hl.toRelay out ho).written hsrc hid s.relay wsi

/-- The streamer connects, `b` connects and asks for a session, and the loop is about to take its message. -/
def requestRelayed : List Action :=
  [.connect 1, .peer (.established 2 (str "/b") []),
    .peer (.receive 2 (str "\x7b\"id\":\"server\",\"type\":\"request\"\x7d")), .deliver 0,
    .streamer (.onMessage .push), .streamer (.loop .check)]

theorem routing_request :
    ∃ s ∈ exec (step JsonText.text) init requestRelayed,
      ∃ s' ∈ step JsonText.text s (.streamer (.loop .pop)),
        Streamer.idOf s'.streamer.clients 0 = some (str "b") ∧
        ∃ origin ∈ trace (step JsonText.text) relayed init requestRelayed, ∃ message,
          origin.Asks JsonText.text (str "b") (str "request") message := by
  have hrun : ∃ s ∈ exec (step JsonText.text) init requestRelayed,
      ∃ s' ∈ step JsonText.text s (.streamer (.loop .pop)),
        Streamer.idOf s.streamer.clients 0 = none ∧ Streamer.idOf s'.streamer.clients 0 = some (str "b") := by
    decide +kernel
  obtain ⟨s, hs, s', hst, hnone, hid⟩ := hrun
  obtain ⟨origin, hmem, _, message, -, hasks⟩ := (routing hs (by decide)).1 _ s' hst 0 hnone hid
  exact ⟨s, hs, s', hst, hid, origin, hmem, message, hasks⟩

end System

end WebrtcStreamer
