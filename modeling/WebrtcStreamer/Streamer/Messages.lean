import Mathlib.Data.List.AList
import WebrtcStreamer.Lib.Json

/-!
# `Streamer.Messages` — what the streamer makes of a message (`src/WebRTCStreamer.cpp`)

Two kinds of text share the signaling queue. `onMessage` takes what arrives on the WebSocket, marks it as
`"io_mode": "input"` and queues it; the callbacks of a client queue `disconnectMessage` and
`descriptionMessage`, marked as `"output"`. The signaling loop parses a text again and dispatches on it:
`process` is its body between the pop and the operation it decides on.

An exception that leaves `process` leaves the loop. `process_inbound_ok` says for which inbound messages
there is none, `process_disconnect` and `process_description` that a client's own messages are always
handled.
-/

namespace WebrtcStreamer

namespace Streamer

open Json

/-- A `Client` object, by the order of construction. -/
abbrev ClientRef := Nat

/-- `SafeUMap<string, Client> _clientsMap`. -/
abbrev ClientsMap := AList (fun _ : Bytes => ClientRef)

/-- What the WebSocket delivers: `variant<binary, string>`. -/
inductive Data
  | binary (bytes : Bytes)
  | text (message : Bytes)
deriving DecidableEq

/-- What `typeString` can return. -/
inductive DescriptionType
  | unspec
  | offer
  | answer
  | pranswer
  | rollback
deriving DecidableEq

def DescriptionType.typeString : DescriptionType → Bytes
  | .unspec => str "unspec"
  | .offer => str "offer"
  | .answer => str "answer"
  | .pranswer => str "pranswer"
  | .rollback => str "rollback"

/-- What the signaling loop does with a message. -/
inductive Verdict
  | skip
  | request (id : Bytes)
  | answer (client : ClientRef) (sdp : Bytes)
  | erase (id : Bytes)
  | send (message : Bytes)
deriving DecidableEq

variable (C : Codec)

/-! ## The two sources of texts -/

/-- `safeParse`. -/
def safeParse (s : Bytes) : Option Json := C.parse s

/-- The `onMessage` callback up to its push: the text it pushes, if it gets there. -/
def onMessage (data : Data) : Except Error (Option Bytes) :=
  match data with
  | .binary _ => .ok none
  | .text message =>
      match safeParse C message with
      | none => .ok none
      | some jsonMsg => do
          let marked ← jsonMsg.assign (str "io_mode") (.string (str "input"))
          match C.dump marked with
          | some text => .ok (some text)
          | none => .error (.typeError 316)

/-- The message of the state-change callback: request to delete this client. -/
def disconnectMessage (id : Bytes) : Json :=
  .object [(str "id", .string id), (str "io_mode", .string (str "output")),
    (str "type", .string (str "disconnect"))]

/-- The message of the gathering-state callback: gathering complete, send the description. -/
def descriptionMessage (id : Bytes) (type : DescriptionType) (sdp : Bytes) : Json :=
  .object [(str "id", .string id), (str "io_mode", .string (str "output")), (str "sdp", .string sdp),
    (str "type", .string type.typeString)]

/-! ## The signaling loop -/

/-- `inputMessageHandler` up to the operation it ends in. -/
def inputMessageHandler (clientsMap : ClientsMap) (id type : Bytes) (jsonMsg : Json) :
    Except Error Verdict :=
  match C.dump jsonMsg with  -- for the log
  | none => .error (.typeError 316)
  | some _ =>
      if type = str "request" then .ok (.request id)
      else if type = str "answer" then
        match clientsMap.lookup id with
        | none => .ok .skip
        | some it => do
            let (value, _) ← jsonMsg.index (str "sdp")
            let sdp ← value.getString
            .ok (.answer it sdp)
      else .ok .skip

/-- `outputMessageHandler` up to the operation it ends in. -/
def outputMessageHandler (id type : Bytes) (jsonMsg : Json) : Except Error Verdict :=
  match C.dump jsonMsg with
  | none => .error (.typeError 316)
  | some message => if type = str "disconnect" then .ok (.erase id) else .ok (.send message)

/-- The body of the processing loop for one message. -/
def process (clientsMap : ClientsMap) (message : Bytes) : Except Error Verdict :=
  match safeParse C message with
  | none => .ok .skip
  | some jsonMsg =>
      match jsonMsg.find (str "io_mode") with
      | none => .ok .skip
      | some it => do
          let ioMode ← it.getString
          match jsonMsg.find (str "id") with
          | none => .ok .skip
          | some it => do
              let id ← it.getString
              match jsonMsg.find (str "type") with
              | none => .ok .skip
              | some it => do
                  let type ← it.getString
                  if ioMode = str "input" then inputMessageHandler C clientsMap id type jsonMsg
                  else outputMessageHandler C id type jsonMsg

/-! ## Inbound messages -/

/-- `text` is what the `onMessage` callback pushes for `data`. -/
def Inbound (data : Data) (text : Bytes) : Prop := onMessage C data = .ok (some text)

/-- **A harmless message**: it has no `id`, or the `id` is a string and so is the `type` if there is one;
    and if it is an `answer` for a registered id, its `sdp` is a string. -/
def Harmless (clientsMap : ClientsMap) : Data → Prop
  | .binary _ => True
  | .text message =>
      ∀ jsonMsg, C.parse message = some jsonMsg →
        jsonMsg.find (str "id") = none ∨
        ∃ id, jsonMsg.HasString (str "id") id ∧
          (jsonMsg.find (str "type") = none ∨
            ∃ type, jsonMsg.HasString (str "type") type ∧
              (type = str "answer" → id ∈ clientsMap → ∃ sdp, jsonMsg.HasString (str "sdp") sdp))

variable {C}

theorem id_ne_io_mode : str "id" ≠ str "io_mode" := by decide

theorem type_ne_io_mode : str "type" ≠ str "io_mode" := by decide

theorem sdp_ne_io_mode : str "sdp" ≠ str "io_mode" := by decide

/-- What an inbound text is read back as: the received value, marked as input. -/
theorem Inbound.read {data : Data} {text : Bytes} (h : Inbound C data text) :
    ∃ message jsonMsg marked, data = .text message ∧ C.parse message = some jsonMsg ∧
      jsonMsg.assign (str "io_mode") (.string (str "input")) = .ok marked ∧ C.parse text = some marked ∧
      C.dump marked = some text := by
  unfold Inbound onMessage at h
  cases data with
  | binary _ => exact absurd h (by simp)
  | text message =>
      cases hp : C.parse message with
      | none => simp only [safeParse, hp] at h; exact absurd h (by simp)
      | some jsonMsg =>
          cases ha : jsonMsg.assign (str "io_mode") (.string (str "input")) with
          | error e => simp only [safeParse, hp, ha, bind, Except.bind] at h; exact absurd h (by simp)
          | ok marked =>
              simp only [safeParse, hp, ha, bind, Except.bind] at h
              split at h
              · rename_i t hd
                obtain rfl := Option.some.inj (Except.ok.inj h)
                exact ⟨message, jsonMsg, marked, rfl, hp, ha, C.read_back hp ha trivial hd, hd⟩
              · exact absurd h (by simp)

theorem getString_string (s : Bytes) : (Json.string s).getString = .ok s := rfl

theorem getString_error {v : Json} (h : ∀ s, v ≠ .string s) : v.getString = .error (.typeError 302) := by
  cases v with
  | string s => exact absurd rfl (h s)
  | null | boolean _ | number _ _ | array _ | object _ => rfl

/-- **Dispatch of an inbound text**: `process` goes by the fields of the received value, and always to
    `inputMessageHandler`. -/
theorem process_inbound {clientsMap : ClientsMap} {text : Bytes} {jsonMsg marked : Json}
    (ha : jsonMsg.assign (str "io_mode") (.string (str "input")) = .ok marked)
    (hp : C.parse text = some marked) :
    process C clientsMap text =
      (match jsonMsg.find (str "id") with
      | none => .ok .skip
      | some it => do
          let id ← it.getString
          match jsonMsg.find (str "type") with
          | none => .ok .skip
          | some it => do
              let type ← it.getString
              inputMessageHandler C clientsMap id type marked) := by
  rw [process, safeParse, hp, ← find_assign_ne ha id_ne_io_mode, ← find_assign_ne ha type_ne_io_mode]
  simp only [find_assign_self ha, getString_string]
  rfl

/-- `inputMessageHandler` throws on one kind of message only. -/
theorem inputMessageHandler_ok (clientsMap : ClientsMap) (id type : Bytes) {text : Bytes} {marked : Json}
    (hd : C.dump marked = some text) :
    (∃ v, inputMessageHandler C clientsMap id type marked = .ok v) ↔
      (type = str "answer" → id ∈ clientsMap → ∃ sdp, marked.HasString (str "sdp") sdp) := by
  have hne : str "answer" ≠ str "request" := by decide
  unfold inputMessageHandler
  simp only [hd]
  by_cases hreq : type = str "request"
  · rw [if_pos hreq]
    refine ⟨fun _ ht => ?_, fun _ => ⟨_, rfl⟩⟩
    exact absurd (ht.symm.trans hreq) hne
  · rw [if_neg hreq]
    by_cases hans : type = str "answer"
    · rw [if_pos hans]
      cases hl : clientsMap.lookup id with
      | none =>
          refine ⟨fun _ _ hmem => ?_, fun _ => ⟨_, rfl⟩⟩
          exact absurd hmem (AList.lookup_eq_none.mp hl)
      | some it =>
          have hmem : id ∈ clientsMap := AList.lookup_isSome.mp (by rw [hl]; rfl)
          constructor
          · rintro ⟨v, hv⟩ _ _
            simp only [bind, Except.bind] at hv
            split at hv
            · exact absurd hv (by simp)
            · rename_i p hi
              split at hv
              · exact absurd hv (by simp)
              · rename_i sdp hg
                exact ⟨sdp, (index_getString.mp ⟨p.1, hi, hg⟩).2⟩
          · intro h
            obtain ⟨sdp, hsdp⟩ := h hans hmem
            refine ⟨.answer it sdp, ?_⟩
            simp only [index_ok hsdp, getString_string, bind, Except.bind]
    · rw [if_neg hans]
      exact ⟨fun _ ht => absurd ht hans, fun _ => ⟨_, rfl⟩⟩

/-- **No exception, exactly on the harmless messages.** -/
theorem process_inbound_ok {clientsMap : ClientsMap} {data : Data} {text : Bytes}
    (h : Inbound C data text) :
    (∃ v, process C clientsMap text = .ok v) ↔ Harmless C clientsMap data := by
  obtain ⟨message, jsonMsg, marked, rfl, hp, ha, hread, hd⟩ := h.read
  have hfield : ∀ {key : Bytes}, key ≠ str "io_mode" → marked.find key = jsonMsg.find key :=
    fun hne => find_assign_ne ha hne
  have hharm : Harmless C clientsMap (.text message) ↔
      jsonMsg.find (str "id") = none ∨
        ∃ id, jsonMsg.HasString (str "id") id ∧
          (jsonMsg.find (str "type") = none ∨
            ∃ type, jsonMsg.HasString (str "type") type ∧
              (type = str "answer" → id ∈ clientsMap → ∃ sdp, jsonMsg.HasString (str "sdp") sdp)) := by
    constructor
    · intro hh
      exact hh jsonMsg hp
    · intro hh j hj
      exact Option.some.inj (hp.symm.trans hj) ▸ hh
  rw [process_inbound ha hread, hharm]
  unfold HasString
  cases hid : jsonMsg.find (str "id") with
  | none => simp
  | some idValue =>
      simp only [reduceCtorEq, false_or]
      by_cases hstr : ∃ id, idValue = .string id
      · obtain ⟨id, rfl⟩ := hstr
        simp only [getString_string, bind, Except.bind, Option.some.injEq, Json.string.injEq,
          exists_eq_left']
        cases htype : jsonMsg.find (str "type") with
        | none => simp
        | some typeValue =>
            by_cases hstr' : ∃ type, typeValue = .string type
            · obtain ⟨type, rfl⟩ := hstr'
              have hok := inputMessageHandler_ok clientsMap id type hd
              simp only [getString_string, Option.some.injEq, Json.string.injEq, exists_eq_left',
                reduceCtorEq, false_or]
              rw [hok]
              unfold HasString
              rw [hfield sdp_ne_io_mode]
            · have hno : ∀ s, typeValue ≠ .string s := fun s hs => hstr' ⟨s, hs⟩
              simp [getString_error hno, hno]
      · have hno : ∀ s, idValue ≠ .string s := fun s hs => hstr ⟨s, hs⟩
        simp [getString_error hno, hno, bind, Except.bind]

/-- **What an inbound message can lead to**: a request or an answer, as its own fields say. -/
inductive InboundVerdict (clientsMap : ClientsMap) (jsonMsg : Json) : Verdict → Prop
  | skip : InboundVerdict clientsMap jsonMsg .skip
  | request {id} : jsonMsg.HasString (str "id") id → jsonMsg.HasString (str "type") (str "request") →
      InboundVerdict clientsMap jsonMsg (.request id)
  | answer {id it sdp} : jsonMsg.HasString (str "id") id →
      jsonMsg.HasString (str "type") (str "answer") → clientsMap.lookup id = some it →
      jsonMsg.HasString (str "sdp") sdp → InboundVerdict clientsMap jsonMsg (.answer it sdp)

theorem process_inbound_verdict {clientsMap : ClientsMap} {data : Data} {text : Bytes} {v : Verdict}
    (h : Inbound C data text) (hv : process C clientsMap text = .ok v) :
    ∃ message jsonMsg, data = .text message ∧ C.parse message = some jsonMsg ∧
      InboundVerdict clientsMap jsonMsg v := by
  obtain ⟨message, jsonMsg, marked, rfl, hp, ha, hread, hd⟩ := h.read
  refine ⟨message, jsonMsg, rfl, hp, ?_⟩
  rw [process_inbound ha hread] at hv
  cases hid : jsonMsg.find (str "id") with
  | none =>
      simp only [hid] at hv
      exact Except.ok.inj hv ▸ .skip
  | some idValue =>
      simp only [hid, bind, Except.bind] at hv
      split at hv
      · exact absurd hv (by simp)
      rename_i id hgid
      obtain rfl := getString_ok.mp hgid
      cases htype : jsonMsg.find (str "type") with
      | none =>
          simp only [htype] at hv
          exact Except.ok.inj hv ▸ .skip
      | some typeValue =>
          simp only [htype] at hv
          split at hv
          · exact absurd hv (by simp)
          rename_i type hgtype
          obtain rfl := getString_ok.mp hgtype
          simp only [inputMessageHandler, hd] at hv
          split at hv
          · rename_i hreq
            subst hreq
            exact Except.ok.inj hv ▸ .request hid htype
          split at hv
          · rename_i hans
            subst hans
            split at hv
            · exact Except.ok.inj hv ▸ .skip
            · rename_i it hl
              simp only [bind, Except.bind] at hv
              split at hv
              · exact absurd hv (by simp)
              rename_i p hi
              split at hv
              · exact absurd hv (by simp)
              · rename_i sdp hg
                have hsdp := (index_getString.mp ⟨p.1, hi, hg⟩).2
                unfold HasString at hsdp
                rw [find_assign_ne ha sdp_ne_io_mode] at hsdp
                exact Except.ok.inj hv ▸ .answer hid htype hl hsdp
          · exact Except.ok.inj hv ▸ .skip

/-! ## A client's own messages -/

/-- `text` is a message that a callback of a client with this id produces. -/
def Emitted (C : Codec) (id text : Bytes) : Prop :=
  C.dump (disconnectMessage id) = some text ∨
  ∃ type sdp, C.dump (descriptionMessage id type sdp) = some text

theorem wf_disconnectMessage (number : Int → Int → Prop) (id : Bytes) : (disconnectMessage id).wf number := by
  unfold disconnectMessage
  simp only [wf, wfMembers, and_true]
  show List.Pairwise (· < ·) [str "id", str "io_mode", str "type"]
  decide

theorem wf_descriptionMessage (number : Int → Int → Prop) (id : Bytes) (type : DescriptionType) (sdp : Bytes) :
    (descriptionMessage id type sdp).wf number := by
  unfold descriptionMessage
  simp only [wf, wfMembers, and_true]
  show List.Pairwise (· < ·) [str "id", str "io_mode", str "sdp", str "type"]
  decide

/-- Dispatch of a text marked as output. -/
theorem process_output (clientsMap : ClientsMap) {text id : Bytes} (type : Bytes) {jsonMsg : Json}
    (hp : C.parse text = some jsonMsg) (hmode : jsonMsg.HasString (str "io_mode") (str "output"))
    (hid : jsonMsg.HasString (str "id") id) (htype : jsonMsg.HasString (str "type") type)
    (hd : C.dump jsonMsg = some text) :
    process C clientsMap text = .ok (if type = str "disconnect" then .erase id else .send text) := by
  unfold HasString at hmode hid htype
  have hne : str "output" ≠ str "input" := by decide
  simp only [process, safeParse, hp, hmode, hid, htype, getString_string, bind, Except.bind, if_neg hne,
    outputMessageHandler, hd]
  split <;> rfl

theorem typeString_ne_disconnect (type : DescriptionType) : type.typeString ≠ str "disconnect" := by
  cases type <;> decide

theorem process_disconnect (clientsMap : ClientsMap) {id text : Bytes}
    (h : C.dump (disconnectMessage id) = some text) : process C clientsMap text = .ok (.erase id) := by
  have hp := C.parse_dump (wf_disconnectMessage _ id) h
  exact process_output clientsMap (str "disconnect") hp rfl rfl rfl h

theorem process_description (clientsMap : ClientsMap) {id sdp text : Bytes} {type : DescriptionType}
    (h : C.dump (descriptionMessage id type sdp) = some text) :
    process C clientsMap text = .ok (.send text) := by
  have hp := C.parse_dump (wf_descriptionMessage _ id type sdp) h
  rw [process_output clientsMap type.typeString hp rfl rfl rfl h,
    if_neg (typeString_ne_disconnect type)]

/-- A client's disconnect names the client. -/
theorem emitted_disconnect {id X text : Bytes} (h : Emitted C id text)
    (hd : C.dump (disconnectMessage X) = some text) : X = id := by
  rcases h with h | ⟨type, sdp, h⟩
  · have heq := C.dump_injective (wf_disconnectMessage _ X) (wf_disconnectMessage _ id) hd h
    simpa [disconnectMessage] using heq
  · have heq := C.dump_injective (wf_disconnectMessage _ X) (wf_descriptionMessage _ id type sdp) hd h
    exact absurd heq (by simp [disconnectMessage, descriptionMessage])

/-- **A client's message is always handled**: it erases the client's id or is sent as it is. -/
theorem process_emitted (clientsMap : ClientsMap) {id text : Bytes} (h : Emitted C id text) :
    process C clientsMap text = .ok (.erase id) ∨ process C clientsMap text = .ok (.send text) := by
  rcases h with h | ⟨type, sdp, h⟩
  · exact .inl (process_disconnect clientsMap h)
  · exact .inr (process_description clientsMap h)

end Streamer

end WebrtcStreamer
