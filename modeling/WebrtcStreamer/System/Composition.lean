import WebrtcStreamer.Relay.Registry
import WebrtcStreamer.Streamer.Step

/-!
# `System.Composition` — the relay and the streamer together

The streamer is one of the relay's clients: it connects under `/server` and again whenever its connection is
lost. The two state machines run side by side, with the texts under way between them. A text under way is
delivered unaltered and in one piece, in any order or never; what the relay writes to other connections
leaves the system.

The tag of a received message is its `Relaying`: the payload that the relay made it of, the connection that
the payload came in on, and the registry at that time.
-/

namespace WebrtcStreamer

namespace System

/-! ## What the relay receives -/

/-- A payload as `callback_ws` handles it. -/
structure Relaying where
  clients : Relay.Clients
  sender : Relay.Wsi
  payload : Bytes

/-- The payload that an event brings, if it brings one. -/
def relaying (s : Relay.State) : Relay.Event → Option Relaying
  | .established wsi uri data =>
      some { clients := Relay.established s.clients wsi uri, sender := wsi, payload := data }
  | .receive wsi data => some { clients := s.clients, sender := wsi, payload := data }
  | .closed _ | .reorder _ => none

/-- The event is none of the streamer's connections. -/
def foreign (own : List Relay.Wsi) : Relay.Event → Bool
  | .established wsi _ _ | .receive wsi _ | .closed wsi => !own.contains wsi
  | .reorder _ => true

/-! ## The state -/

/-- A text on its way to the streamer. -/
structure Inbound where
  origin : Relaying
  text : Bytes

/-- A text on its way to the relay. -/
structure Outbound where
  text : Bytes
  source : Streamer.Source Relaying

structure State where
  relay : Relay.State
  streamer : Streamer.State Relaying
  /-- The open connections of the streamer. -/
  own : List Relay.Wsi
  toStreamer : List Inbound
  toRelay : List Outbound

def init : State where
  relay := Relay.init
  streamer := Streamer.init Relaying
  own := []
  toStreamer := []
  toRelay := []

/-! ## Steps -/

inductive Action
  | peer (e : Relay.Event)
  | connect (wsi : Relay.Wsi)
  | disconnect (wsi : Relay.Wsi)
  | relay (i : Nat) (wsi : Relay.Wsi)
  | deliver (i : Nat)
  | streamer (a : Streamer.Action Relaying)

/-- The event at the relay that an action is. -/
def event (s : State) : Action → Option Relay.Event
  | .peer e => some e
  | .connect wsi => some (.established wsi (str "/server") [])
  | .disconnect wsi => some (.closed wsi)
  | .relay i wsi => s.toRelay[i]?.map fun out => .receive wsi out.text
  | .deliver _ | .streamer _ => none

/-- The payload that the relay receives in a step. -/
def relayed (s : State) (a : Action) : List Relaying := ((event s a).bind (relaying s.relay)).toList

variable (C : Codec)

/-- What the relay writes to the streamer's connections. -/
def forwarded (s : State) (e : Relay.Event) : List Inbound :=
  match relaying s.relay e with
  | some origin =>
      ((Relay.writes C s.relay e).filter fun w => s.own.contains w.wsi).map fun w =>
        { origin := origin, text := w.payload }
  | none => []

def relayEvent (s : State) (e : Relay.Event) : Option State := do
  let relay ← Relay.step C s.relay e
  some { s with relay := relay, toStreamer := s.toStreamer ++ forwarded C s e }

/-- The WebSocket delivers a message; it delivers none but the relay's. -/
def receives : Streamer.Action Relaying → Bool
  | .onMessage (.receive _ _) => true
  | _ => false

/-- The text that the signaling loop sends in a step. -/
def sent (s : Streamer.State Relaying) : Streamer.Action Relaying → List Outbound
  | .loop (.send false) =>
      match s.loop with
      | .sending text source => [{ text := text, source := source }]
      | _ => []
  | _ => []

def step (s : State) : Action → Option State
  | .peer e => if foreign s.own e then relayEvent C s e else none
  | .connect wsi => relayEvent C { s with own := wsi :: s.own } (.established wsi (str "/server") [])
  | .disconnect wsi =>
      if wsi ∈ s.own then relayEvent C { s with own := s.own.filter fun w => w != wsi } (.closed wsi) else none
  | .relay i wsi =>
      if wsi ∈ s.own then do
        let out ← s.toRelay[i]?
        relayEvent C { s with toRelay := s.toRelay.eraseIdx i } (.receive wsi out.text)
      else none
  | .deliver i => do
      let m ← s.toStreamer[i]?
      let streamer ← Streamer.step C s.streamer (.onMessage (.receive m.origin (.text m.text)))
      some { s with streamer := streamer, toStreamer := s.toStreamer.eraseIdx i }
  | .streamer a =>
      if receives a then none
      else do
        let streamer ← Streamer.step C s.streamer a
        some { s with streamer := streamer, toRelay := s.toRelay ++ sent s.streamer a }

variable {C}

/-! ## Inversion -/

theorem relayEvent_cases {s s' : State} {e : Relay.Event} (h : relayEvent C s e = some s') :
    ∃ relay, Relay.step C s.relay e = some relay ∧
      s' = { s with relay := relay, toStreamer := s.toStreamer ++ forwarded C s e } := by
  obtain ⟨relay, hr, h⟩ := Option.bind_eq_some_iff.mp h
  exact ⟨relay, hr, (Option.some.inj h).symm⟩

inductive Stepped (C : Codec) (s : State) : Action → State → Prop
  | peer {e s'} : foreign s.own e = true → relayEvent C s e = some s' → Stepped C s (.peer e) s'
  | connected {wsi s'} :
      relayEvent C { s with own := wsi :: s.own } (.established wsi (str "/server") []) = some s' →
      Stepped C s (.connect wsi) s'
  | disconnected {wsi s'} :
      relayEvent C { s with own := s.own.filter fun w => w != wsi } (.closed wsi) = some s' →
      Stepped C s (.disconnect wsi) s'
  | relayed {i wsi out s'} : s.toRelay[i]? = some out →
      relayEvent C { s with toRelay := s.toRelay.eraseIdx i } (.receive wsi out.text) = some s' →
      Stepped C s (.relay i wsi) s'
  | delivered {i m streamer} : s.toStreamer[i]? = some m →
      Streamer.step C s.streamer (.onMessage (.receive m.origin (.text m.text))) = some streamer →
      Stepped C s (.deliver i) { s with streamer := streamer, toStreamer := s.toStreamer.eraseIdx i }
  | streamer {a streamer} : receives a = false →
      Streamer.step C s.streamer a = some streamer →
      Stepped C s (.streamer a) { s with streamer := streamer, toRelay := s.toRelay ++ sent s.streamer a }

theorem step_cases {s s' : State} {a : Action} (h : step C s a = some s') : Stepped C s a s' := by
  cases a with
  | peer e =>
      simp only [step] at h
      split at h
      · rename_i hf
        exact .peer hf h
      · exact absurd h (by simp)
  | connect wsi => exact .connected h
  | disconnect wsi =>
      simp only [step] at h
      split at h
      · exact .disconnected h
      · exact absurd h (by simp)
  | relay i wsi =>
      simp only [step] at h
      split at h
      · obtain ⟨out, hout, h⟩ := Option.bind_eq_some_iff.mp h
        exact .relayed hout h
      · exact absurd h (by simp)
  | deliver i =>
      obtain ⟨m, hm, h⟩ := Option.bind_eq_some_iff.mp h
      obtain ⟨streamer, hst, h⟩ := Option.bind_eq_some_iff.mp h
      obtain rfl := Option.some.inj h
      exact .delivered hm hst
  | streamer a =>
      simp only [step] at h
      split at h
      · exact absurd h (by simp)
      · rename_i hrec
        obtain ⟨streamer, hst, h⟩ := Option.bind_eq_some_iff.mp h
        obtain rfl := Option.some.inj h
        exact .streamer (Bool.not_eq_true _ ▸ hrec) hst

end System

end WebrtcStreamer
