import WebrtcStreamer.Relay.Chunking

/-!
# `Relay.Effect` — what one payload of a registered sender does

A payload that is a message for a registered id is to be written once, to the holder of that id, with the
sender's id in place of the destination's; any other payload is to be dropped. The id that is put in is
whatever the path of the connection held, and `dump` refuses a string that is not UTF-8: then the message is
dropped like a malformed one. `effect_iff` says that this is the only deviation.
-/

namespace WebrtcStreamer

namespace Relay

open Transition Json

variable (C : Codec)

/-- **The effect of one payload** from `wsi`, which is registered under `X`. -/
structure ExactEffect (clients : Clients) (wsi : Wsi) (X data : Bytes) : Prop where
  forwarded : ∀ message destId dest, Addressed C clients data message destId dest →
    ∃ stamped out, (callbackWs C clients wsi .receive data).2 = [{ wsi := dest.wsi, payload := out }] ∧
      C.parse out = some stamped ∧ message.assign (str "id") (.string X) = .ok stamped
  dropped : (∀ message destId dest, ¬ Addressed C clients data message destId dest) →
    (callbackWs C clients wsi .receive data).2 = []
  kept : (callbackWs C clients wsi .receive data).1 = clients

variable {C}

/-- **A message for a registered id**, from a sender registered under `X`: it is written, with `X` put in, if
    `X` is UTF-8, and otherwise nothing is. -/
theorem receive_registered {s : State} (hi : Inv s) {X data destId : Bytes} {client dest : Client}
    {message : Json} (hX : s.clients.lookup X = some client)
    (ha : Addressed C s.clients data message destId dest) :
    ∃ stamped, message.assign (str "id") (.string X) = .ok stamped ∧
      ((utf8Valid X = true ∧ ∃ out, C.parse out = some stamped ∧
          receive C s.clients client.wsi data = [{ wsi := dest.wsi, payload := out }]) ∨
        (utf8Valid X = false ∧ receive C s.clients client.wsi data = [])) := by
  obtain ⟨stamped, hs⟩ := stampSender_ok s.clients client.wsi ha.id
  have hassign := (hi.stampSender_eq hX rfl message).symm.trans hs
  refine ⟨stamped, hassign, ?_⟩
  rw [receive_addressed ha hs]
  cases hout : C.dump stamped with
  | some out =>
      have hX' := (dump_stamped_iff ha.parsed hassign).mp (by rw [hout]; rfl)
      exact .inl ⟨hX', out, C.read_back ha.parsed hassign trivial hout, rfl⟩
  | none =>
      refine .inr ⟨?_, rfl⟩
      by_contra hne
      have hsome := (dump_stamped_iff ha.parsed hassign).mpr (by simpa using hne)
      rw [hout] at hsome
      exact absurd hsome (by simp)

/-- **One payload, exactly.** After every run, for every connection that is registered and every payload from
    it, the payload has the effect it should have if and only if the id of the sender is valid UTF-8, or the
    payload is not a message for a registered id. -/
theorem effect_iff {es : List Event} {s : State} (h : exec (step C) init es = some s) {X : Bytes}
    {client : Client} (hX : s.clients.lookup X = some client) (data : Bytes) :
    ExactEffect C s.clients client.wsi X data ↔
      utf8Valid X = true ∨ ∀ message destId dest, ¬ Addressed C s.clients data message destId dest := by
  have hi : Inv s := exec_inv h
  constructor
  · intro he
    by_cases ha : ∃ message destId dest, Addressed C s.clients data message destId dest
    · obtain ⟨message, destId, dest, ha⟩ := ha
      obtain ⟨stamped, out, hwrites, -, -⟩ := he.forwarded message destId dest ha
      obtain ⟨-, -, ⟨hutf8, -⟩ | ⟨-, hnone⟩⟩ := receive_registered hi hX ha
      · exact .inl hutf8
      · exact absurd (hwrites.symm.trans hnone) (by simp)
    · exact .inr fun message destId dest hm => ha ⟨message, destId, dest, hm⟩
  · intro hcond
    constructor
    · intro message destId dest ha
      have hutf8 : utf8Valid X = true := hcond.resolve_right fun hno => hno message destId dest ha
      obtain ⟨stamped, hassign, ⟨-, out, hparse, hwrites⟩ | ⟨hbad, -⟩⟩ := receive_registered hi hX ha
      · exact ⟨stamped, out, hwrites, hparse, hassign⟩
      · exact absurd (hutf8.symm.trans hbad) (by simp)
    · intro hno
      exact receive_unaddressed hno
    · rfl

/-- `a` sends `{"id":"b"}`. -/
theorem effect_iff_ascii :
    ∃ s ∈ exec (step JsonText.text) init [.established 1 (str "/a") [], .established 2 (str "/b") []],
      ExactEffect JsonText.text s.clients 1 (str "a") (str "\x7b\"id\":\"b\"\x7d") := by
  have hrun : ∃ s ∈ exec (step JsonText.text) init
      [.established 1 (str "/a") [], .established 2 (str "/b") []],
      s.clients.lookup (str "a") = some { wsi := 1, id := str "a" } := by decide +kernel
  obtain ⟨s, hs, hX⟩ := hrun
  exact ⟨s, hs, (effect_iff hs hX _).mpr (.inl (by decide))⟩

/-- The sender has connected with the path `/%FF`, and sends `{"id":"b"}`: `b` gets nothing. -/
theorem sender_not_utf8 :
    ∃ s ∈ exec (step JsonText.text) init [.established 1 [0x2F, 0xFF] [], .established 2 (str "/b") []],
      s.clients.lookup [0xFF] = some { wsi := 1, id := [0xFF] } ∧
        ¬ ExactEffect JsonText.text s.clients 1 [0xFF] (str "\x7b\"id\":\"b\"\x7d") := by
  have hrun : ∃ s ∈ exec (step JsonText.text) init
      [.established 1 [0x2F, 0xFF] [], .established 2 (str "/b") []],
      s.clients.lookup [0xFF] = some { wsi := 1, id := [0xFF] } ∧
        (routed JsonText.text s.clients (str "\x7b\"id\":\"b\"\x7d")).isSome ∧
        (callbackWs JsonText.text s.clients 1 .receive (str "\x7b\"id\":\"b\"\x7d")).2 = [] := by
    decide +kernel
  obtain ⟨s, hs, hX, hrouted, hwrites⟩ := hrun
  refine ⟨s, hs, hX, fun he => ?_⟩
  obtain ⟨m, hm⟩ := Option.isSome_iff_exists.mp hrouted
  obtain ⟨dest, ha⟩ := routed_eq_some.mp hm
  obtain ⟨stamped, out, hone, -, -⟩ := he.forwarded _ _ dest ha
  exact absurd (hone.symm.trans hwrites) (by simp)

end Relay

end WebrtcStreamer
