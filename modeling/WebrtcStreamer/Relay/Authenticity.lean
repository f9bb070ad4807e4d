import WebrtcStreamer.Relay.Registry

/-!
# `Relay.Authenticity` — whose id a forwarded message carries

A receiver trusts the `id` of what it gets to be the sender's. `callback_ws` writes the sender's id into
the message before it forwards it, but only if it finds the sender in the registry: the search has no
`else`. A connection with an empty path is never in the registry, and one that has been superseded no
longer is; what they send is forwarded with the `id` of the payload, which is the id of the destination.

`authentic_iff` says exactly which payloads are affected, `unregistered_sender_forwarded` is one of them.
-/

namespace WebrtcStreamer

namespace Relay

open Transition

variable (C : Codec)

/-- The text carries, as its `id`, the id that `wsi` connected under. -/
def Authentic (s : State) (wsi : Wsi) (payload : Bytes) : Prop :=
  ∃ message X, C.parse payload = some message ∧ message.HasString (str "id") X ∧
    s.conns.lookup wsi = some (some X)

/-- Every write that a received payload causes is authentic. -/
def AuthenticWrites (s : State) : Event → Prop
  | .receive wsi data => ∀ w ∈ writes C s (.receive wsi data), Authentic C s wsi w.payload
  | _ => True

/-- The sender of a payload is registered, or the payload addresses no registered id but the one that the
    sender connected under itself. -/
def Accountable (s : State) : Event → Prop
  | .receive wsi data =>
      (∃ X c, s.clients.lookup X = some c ∧ c.wsi = wsi) ∨
      ∀ message destId dest, Addressed C s.clients data message destId dest →
        s.conns.lookup wsi = some (some destId)
  | _ => True

variable {C}

/-- What a registered sender has forwarded carries its own id. -/
theorem authentic_of_registered {s : State} (hi : Inv s) {wsi : Wsi} {X : Bytes} {c : Client}
    (hc : s.clients.lookup X = some c) (hw : c.wsi = wsi) {data : Bytes} {w : Write}
    (h : w ∈ receive C s.clients wsi data) : Authentic C s wsi w.payload := by
  by_cases ha : ∃ message destId dest, Addressed C s.clients data message destId dest
  · obtain ⟨message, destId, dest, ha⟩ := ha
    obtain ⟨stamped, hs⟩ := stampSender_ok s.clients wsi ha.id
    rw [receive_addressed ha hs, Option.mem_toList, Option.map_eq_some_iff] at h
    obtain ⟨out, hout, rfl⟩ := h
    rw [hi.stampSender_eq hc hw] at hs
    refine ⟨stamped, X, C.read_back ha.parsed hs trivial hout, Json.find_assign_self hs, ?_⟩
    rw [← hw]
    exact (hi X c hc).2
  · rw [receive_unaddressed (fun m d c hc => ha ⟨m, d, c, hc⟩)] at h
    exact absurd h (by simp)

/-- What an unregistered sender has forwarded still carries the id of its destination. -/
theorem receive_unregistered {s : State} (hi : Inv s) {wsi : Wsi}
    (hun : ¬ ∃ X c, s.clients.lookup X = some c ∧ c.wsi = wsi) {data destId : Bytes} {message : Json}
    {dest : Client} (ha : Addressed C s.clients data message destId dest) :
    ∃ out, C.parse out = some message ∧
      receive C s.clients wsi data = [{ wsi := dest.wsi, payload := out }] := by
  have hsender : senderId s.clients wsi = none := by
    cases h : senderId s.clients wsi with
    | none => rfl
    | some X =>
        obtain ⟨c, hc, hw⟩ := hi.senderId_iff.mp h
        exact absurd ⟨X, c, hc, hw⟩ hun
  have hs : stampSender s.clients wsi message = .ok message := by
    rw [stampSender, hsender]
  obtain ⟨out, hout⟩ := C.dump_of_parse ha.parsed
  refine ⟨out, C.parse_dump (C.parse_wf ha.parsed) hout, ?_⟩
  rw [receive_addressed ha hs, hout]
  rfl

theorem authenticWrites_iff {s : State} (hi : Inv s) (e : Event) :
    AuthenticWrites C s e ↔ Accountable C s e := by
  cases e with
  | established _ _ _ | closed _ | reorder _ => exact Iff.rfl
  | receive wsi data =>
      show (∀ w ∈ receive C s.clients wsi data, Authentic C s wsi w.payload) ↔ _ ∨ _
      constructor
      · intro h
        by_cases hreg : ∃ X c, s.clients.lookup X = some c ∧ c.wsi = wsi
        · exact .inl hreg
        · refine .inr fun message destId dest ha => ?_
          obtain ⟨out, hparse, hwrites⟩ := receive_unregistered hi hreg ha
          obtain ⟨message', X, hm, hid, hown⟩ := h _ (hwrites ▸ List.mem_singleton_self _)
          obtain rfl := Option.some.inj (hparse.symm.trans hm)
          have hX : destId = X := by simpa using ha.id.symm.trans hid
          rw [hX]
          exact hown
      · intro h w hw
        by_cases hreg : ∃ X c, s.clients.lookup X = some c ∧ c.wsi = wsi
        · obtain ⟨X, c, hc, hcw⟩ := hreg
          exact authentic_of_registered hi hc hcw hw
        · have hown := h.resolve_left hreg
          by_cases ha : ∃ message destId dest, Addressed C s.clients data message destId dest
          · obtain ⟨message, destId, dest, ha⟩ := ha
            obtain ⟨out, hparse, hwrites⟩ := receive_unregistered hi hreg ha
            rw [hwrites, List.mem_singleton] at hw
            subst hw
            exact ⟨message, destId, hparse, ha.id, hown message destId dest ha⟩
          · rw [receive_unaddressed (fun m d c hc => ha ⟨m, d, c, hc⟩)] at hw
            exact absurd hw (by simp)

/-- **Sender authenticity, exactly.** In every run, all writes that payloads cause carry the id their
    sender connected under if and only if every payload has a registered sender or addresses no registered
    id but its sender's own. -/
theorem authentic_iff (es : List Event) :
    Always (step C) (AuthenticWrites C) init es ↔ Always (step C) (Accountable C) init es :=
  always_congr (fun _ _ _ hi hst => inv_step hi hst) (fun _ e hi => authenticWrites_iff hi e) es init
    inv_init

/-- A connection with an empty path, so with no id, sends `{"id":"b"}`; `b` gets it as if from `b`. -/
theorem unregistered_sender_forwarded :
    ∃ s, exec (step JsonText.text) init [.established 1 (str "/b") [], .established 2 (str "/") []] = some s ∧
      (2 : Wsi) ∈ s.conns ∧
      ∃ w ∈ writes JsonText.text s (.receive 2 (str "\x7b\"id\":\"b\"\x7d")),
        ¬ Authentic JsonText.text s 2 w.payload := by
  have hrun : ∃ s ∈ exec (step JsonText.text) init [.established 1 (str "/b") [], .established 2 (str "/") []],
      (2 : Wsi) ∈ s.conns ∧ s.conns.lookup 2 = some none ∧
        { wsi := 1, payload := str "\x7b\"id\":\"b\"\x7d" } ∈
          writes JsonText.text s (.receive 2 (str "\x7b\"id\":\"b\"\x7d")) := by
    decide +kernel
  obtain ⟨s, hs, hopen, hno, hw⟩ := hrun
  refine ⟨s, hs, hopen, _, hw, ?_⟩
  rintro ⟨message, X, -, -, hown⟩
  rw [hno] at hown
  exact absurd hown (by simp)

end Relay

end WebrtcStreamer
