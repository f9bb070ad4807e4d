import Mathlib.Data.List.AList
import WebrtcStreamer.Lib.Json

/-!
# `Relay.Callback` — the signaling relay (`src/wsserver.cpp`)

`callbackWs` is `callback_ws`: the registry before and after a callback and the `lws_write`s made. The
registry `clients` is an association list whose order is the iteration order of the `unordered_map`.

Two lemmas for each case of the switch say what the later files use: `lookup_established` and
`lookup_closed` for the registry, `receive_addressed` and `receive_unaddressed` for the writes.
-/

namespace WebrtcStreamer

namespace Relay

open Json

/-- A connection as libwebsockets names it: the `struct lws *`. -/
abbrev Wsi := Nat

structure Client where
  wsi : Wsi
  id : Bytes
deriving DecidableEq

/-- `static unordered_map<string, Client> clients`. -/
abbrev Clients := AList (fun _ : Bytes => Client)

/-- One `lws_write(wsi, payload, LWS_WRITE_TEXT)`. -/
structure Write where
  wsi : Wsi
  payload : Bytes
deriving DecidableEq

/-- The callback reasons that `callback_ws` handles; `uri` is what the connection's
    `WSI_TOKEN_GET_URI` header holds. -/
inductive Reason
  | established (uri : Bytes)
  | receive
  | closed
  | other

/-! ## The callback -/

/-- A C string: up to the terminating NUL. -/
def cString (b : Bytes) : Bytes := b.takeWhile (fun c => c != 0)

/-- `lws_hdr_copy` into a zeroed buffer of `len` bytes: the return value and what the buffer holds. -/
def lwsHdrCopy (uri : Bytes) (len : Nat) : Int × Bytes :=
  if uri.length = 0 then (0, [])
  else if len ≤ uri.length then (-1, [])  -- the header and its NUL do not fit
  else (uri.length, uri)

/-- The id that the path of a connection names, if it names one. -/
def clientId (uri : Bytes) : Option Bytes :=
  let (cnt, path) := lwsHdrCopy uri 1024
  if 0 < cnt ∧ 1 < (cString path).length then some ((cString path).drop 1)  -- skip leading '/'
  else none

/-- The `LWS_CALLBACK_ESTABLISHED` case up to the fall-through. -/
def established (clients : Clients) (wsi : Wsi) (uri : Bytes) : Clients :=
  match clientId uri with
  | some id => clients.insert id { wsi := wsi, id := id }
  | none => clients

/-- The id of the first entry with this `wsi`, in iteration order. -/
def senderId (clients : Clients) (wsi : Wsi) : Option Bytes :=
  (clients.entries.find? (fun pair => pair.2.wsi == wsi)).map (fun pair => pair.2.id)

/-- Replace id with sender's id; the id stays as it is when no entry has this `wsi`. -/
def stampSender (clients : Clients) (wsi : Wsi) (message : Json) : Except Error Json :=
  match senderId clients wsi with
  | some id => message.assign (str "id") (.string id)
  | none => .ok message

/-- The body of the `try` block in the `LWS_CALLBACK_RECEIVE` case. -/
def forward (C : Codec) (clients : Clients) (wsi : Wsi) (data : Bytes) : Except Error (List Write) := do
  let parsed ← match C.parse data with
    | some message => Except.ok message
    | none => Except.error .parseError
  let (id, message) ← parsed.index (str "id")
  let destId ← id.getString
  match clients.lookup destId with
  | none => Except.ok []
  | some dest =>
      let stamped ← stampSender clients wsi message
      match C.dump stamped with
      | some out => Except.ok [{ wsi := dest.wsi, payload := out }]
      | none => Except.error (.typeError 316)

/-- The `LWS_CALLBACK_RECEIVE` case: every exception is caught and logged. -/
def receive (C : Codec) (clients : Clients) (wsi : Wsi) (data : Bytes) : List Write :=
  match forward C clients wsi data with
  | .ok writes => writes
  | .error _ => []

/-- The `LWS_CALLBACK_CLOSED` case: erase every entry with this `wsi`. -/
def closed (clients : Clients) (wsi : Wsi) : Clients where
  entries := clients.entries.filter (fun pair => pair.2.wsi != wsi)
  nodupKeys := clients.nodupKeys.sublist List.filter_sublist

/-- `callback_ws`. -/
def callbackWs (C : Codec) (clients : Clients) (wsi : Wsi) (reason : Reason) (data : Bytes) :
    Clients × List Write :=
  match reason with
  | .established uri =>
      -- no `break`: the case falls through into LWS_CALLBACK_RECEIVE
      let clients' := established clients wsi uri
      (clients', receive C clients' wsi data)
  | .receive => (clients, receive C clients wsi data)
  | .closed => (closed clients wsi, [])
  | .other => (clients, [])

/-! ## What the callback does to the registry -/

theorem lookup_established {clients : Clients} {wsi : Wsi} {uri X : Bytes} :
    (established clients wsi uri).lookup X =
      if clientId uri = some X then some { wsi := wsi, id := X } else clients.lookup X := by
  unfold established
  split
  · rename_i id hid
    rw [hid]
    by_cases hX : id = X
    · subst hX
      rw [if_pos rfl, AList.lookup_insert]
    · rw [if_neg (fun h => hX (Option.some.inj h)), AList.lookup_insert_ne (fun h => hX h.symm)]
  · rename_i hid
    rw [hid, if_neg (by simp)]

theorem lookup_closed {clients : Clients} {wsi : Wsi} {X : Bytes} {c : Client} :
    (closed clients wsi).lookup X = some c ↔ clients.lookup X = some c ∧ c.wsi ≠ wsi := by
  have hmem : ∀ {m : Clients}, m.lookup X = some c ↔ ⟨X, c⟩ ∈ m.entries := fun {m} =>
    AList.mem_lookup_iff (s := m)
  rw [hmem, hmem]
  show _ ∈ clients.entries.filter _ ↔ _
  rw [List.mem_filter, bne_iff_ne]

/-! ## What the callback forwards -/

/-- The payload is a message for a registered id: an object whose `id` is the string `destId`, and
    `destId` has the entry `dest`. -/
structure Addressed (C : Codec) (clients : Clients) (data : Bytes) (message : Json) (destId : Bytes)
    (dest : Client) : Prop where
  parsed : C.parse data = some message
  id : message.HasString (str "id") destId
  registered : clients.lookup destId = some dest

theorem stampSender_ok (clients : Clients) (wsi : Wsi) {message : Json} {destId : Bytes}
    (h : message.HasString (str "id") destId) : ∃ stamped, stampSender clients wsi message = .ok stamped := by
  unfold stampSender
  split
  · exact assign_of_find h
  · exact ⟨message, rfl⟩

/-- **An addressed payload** leads to one write at most, to the connection of its destination, with the
    stamped message as its text. -/
theorem receive_addressed {C : Codec} {clients : Clients} {wsi : Wsi} {data destId : Bytes}
    {message stamped : Json} {dest : Client} (h : Addressed C clients data message destId dest)
    (hs : stampSender clients wsi message = .ok stamped) :
    receive C clients wsi data =
      ((C.dump stamped).map (fun out => { wsi := dest.wsi, payload := out : Write })).toList := by
  simp only [receive, forward, h.parsed, bind, Except.bind, index_ok h.id, getString, h.registered, hs]
  cases C.dump stamped <;> rfl

/-- **Any other payload** leads to no write. -/
theorem receive_unaddressed {C : Codec} {clients : Clients} {wsi : Wsi} {data : Bytes}
    (h : ∀ message destId dest, ¬ Addressed C clients data message destId dest) :
    receive C clients wsi data = [] := by
  unfold receive
  split
  · rename_i writes hf
    unfold forward at hf
    cases hp : C.parse data with
    | none => rw [hp] at hf; exact absurd hf (by simp [bind, Except.bind])
    | some message =>
        rw [hp] at hf
        simp only [bind, Except.bind] at hf
        split at hf
        · exact absurd hf (by simp)
        · rename_i p hi
          obtain ⟨id, message'⟩ := p
          simp only at hf
          split at hf
          · exact absurd hf (by simp)
          · rename_i destId hg
            obtain ⟨rfl, hid⟩ := index_getString.mp ⟨id, hi, hg⟩
            split at hf
            · exact (Except.ok.inj hf).symm
            · rename_i dest hl
              exact absurd ⟨hp, hid, hl⟩ (h _ _ _)
  · rfl

end Relay

end WebrtcStreamer
