import WebrtcStreamer.Relay.Registry

/-!
# `Relay.Chunking` — messages that arrive in several callbacks

libwebsockets hands a payload over as it arrives, in as many `LWS_CALLBACK_RECEIVE` calls as it takes;
putting it together is the callback's job. `callback_ws` parses each call's bytes as if they were a whole
message.

`chunking_iff` compares a payload that arrives in any chunks, other connections' callbacks in between,
with the same payload in one call. `routed` is what both come down to: what a callback's bytes are on
their own, a message for a registered id or nothing. `split_message_lost` is a message that is lost.
-/

namespace WebrtcStreamer

namespace Relay

open Transition Json

variable (C : Codec)

/-! ## One callback in two stages -/

/-- The message that the bytes are on their own, with the registered id that it is for. -/
def routed (clients : Clients) (data : Bytes) : Option (Json × Bytes) := do
  let message ← C.parse data
  match message.find (str "id") with
  | some (.string destId) => if (clients.lookup destId).isSome then some (message, destId) else none
  | _ => none

/-- The write that a routed message leads to. -/
def deliver (clients : Clients) (wsi : Wsi) (m : Json × Bytes) : Option Write := do
  let dest ← clients.lookup m.2
  let stamped ← (stampSender clients wsi m.1).toOption
  let out ← C.dump stamped
  some { wsi := dest.wsi, payload := out }

variable {C}

theorem routed_eq_some {clients : Clients} {data destId : Bytes} {message : Json} :
    routed C clients data = some (message, destId) ↔
      ∃ dest, Addressed C clients data message destId dest := by
  constructor
  · intro h
    obtain ⟨message', hp, h⟩ := Option.bind_eq_some_iff.mp h
    split at h
    · rename_i destId' hf
      split at h
      · rename_i hreg
        obtain ⟨rfl, rfl⟩ := Prod.mk.inj (Option.some.inj h)
        obtain ⟨dest, hdest⟩ := Option.isSome_iff_exists.mp hreg
        exact ⟨dest, hp, hf, hdest⟩
      · exact absurd h (by simp)
    · exact absurd h (by simp)
  · rintro ⟨dest, hp, hf, hdest⟩
    have hf' : message.find (str "id") = some (.string destId) := hf
    simp only [routed, hp, Option.bind_eq_bind, Option.bind_some, hf', hdest, Option.isSome_some, if_true]

theorem receive_eq (clients : Clients) (wsi : Wsi) (data : Bytes) :
    receive C clients wsi data = ((routed C clients data).bind (deliver C clients wsi)).toList := by
  cases hr : routed C clients data with
  | none =>
      refine receive_unaddressed fun message destId dest ha => ?_
      rw [routed_eq_some.mpr ⟨dest, ha⟩] at hr
      exact absurd hr (by simp)
  | some m =>
      obtain ⟨message, destId⟩ := m
      obtain ⟨dest, ha⟩ := routed_eq_some.mp hr
      obtain ⟨stamped, hs⟩ := stampSender_ok clients wsi ha.id
      rw [receive_addressed ha hs, Option.bind_some]
      simp only [deliver, ha.registered, hs, Except.toOption, Option.bind_eq_bind, Option.bind_some]
      cases C.dump stamped <;> rfl

/-- The writes depend on the registry only through its entries and the search for the sender. -/
theorem receive_congr {clients clients' : Clients} {wsi : Wsi}
    (hl : ∀ X, clients.lookup X = clients'.lookup X) (hs : senderId clients wsi = senderId clients' wsi)
    (data : Bytes) : receive C clients wsi data = receive C clients' wsi data := by
  unfold receive forward stampSender
  simp only [hl, hs]

/-! ## What can be written, and what it determines -/

/-- `wsi` is registered under an id that is not UTF-8 text: `dump` throws on whatever it sends. -/
def Unwritable (clients : Clients) (wsi : Wsi) : Prop :=
  ∃ X c, clients.lookup X = some c ∧ c.wsi = wsi ∧ utf8Valid X = false

theorem utf8_id : utf8Valid (str "id") = true := by decide

/-- What a sender's id has been put into can be written exactly if that id is UTF-8. -/
theorem dump_stamped_iff {data X : Bytes} {message stamped : Json} (hp : C.parse data = some message)
    (hs : message.assign (str "id") (.string X) = .ok stamped) :
    (C.dump stamped).isSome ↔ utf8Valid X = true := by
  rw [C.dump_isSome (wf_assign hs (C.parse_wf hp) trivial)]
  constructor
  · intro hutf8
    exact utf8_find (find_assign_self hs) hutf8
  · intro hX
    exact utf8_assign hs utf8_id (C.parse_utf8 hp) hX

/-- **A routed message is written, and the write determines it**, unless the sender is unwritable. -/
theorem deliver_injective {s : State} (hi : Inv s) {wsi : Wsi} (hu : ¬ Unwritable s.clients wsi)
    {data data' : Bytes} {m m' : Json × Bytes} (hm : routed C s.clients data = some m)
    (hm' : routed C s.clients data' = some m') :
    (∃ w, deliver C s.clients wsi m = some w) ∧
      (deliver C s.clients wsi m = deliver C s.clients wsi m' → m = m') := by
  -- what becomes of a routed message: stamped, still well-formed text, undone by its own id
  have hstage : ∀ {data : Bytes} {m : Json × Bytes}, routed C s.clients data = some m →
      ∃ dest stamped out, s.clients.lookup m.2 = some dest ∧ stampSender s.clients wsi m.1 = .ok stamped ∧
        C.dump stamped = some out ∧ stamped.wf C.number ∧ stamped.assign (str "id") (.string m.2) = .ok m.1 := by
    intro data m hm
    obtain ⟨message, destId⟩ := m
    obtain ⟨dest, ha⟩ := routed_eq_some.mp hm
    obtain ⟨stamped, hs⟩ := stampSender_ok s.clients wsi ha.id
    have hwf := C.parse_wf ha.parsed
    cases hX : senderId s.clients wsi with
    | none =>
        have heq : stamped = message := by
          rw [stampSender, hX] at hs
          exact (Except.ok.inj hs).symm
        subst heq
        obtain ⟨out, hout⟩ := C.dump_of_parse ha.parsed
        exact ⟨dest, stamped, out, ha.registered, hs, hout, hwf, assign_self hwf ha.id⟩
    | some X =>
        obtain ⟨c, hc, hcw⟩ := hi.senderId_iff.mp hX
        have hutf : utf8Valid X = true := by
          by_contra hne
          exact hu ⟨X, c, hc, hcw, Bool.not_eq_true _ ▸ hne⟩
        have hset := (hi.stampSender_eq hc hcw message).symm.trans hs
        obtain ⟨out, hout⟩ := Option.isSome_iff_exists.mp ((dump_stamped_iff ha.parsed hset).mpr hutf)
        exact ⟨dest, stamped, out, ha.registered, hs, hout, wf_assign hset hwf trivial,
          assign_assign hwf ha.id hset⟩
  have hdeliver : ∀ {m : Json × Bytes} {dest : Client} {stamped : Json} {out : Bytes},
      s.clients.lookup m.2 = some dest → stampSender s.clients wsi m.1 = .ok stamped →
      C.dump stamped = some out → deliver C s.clients wsi m = some { wsi := dest.wsi, payload := out } := by
    intro m dest stamped out hd hs ho
    simp only [deliver, hd, hs, ho, Except.toOption, Option.bind_eq_bind, Option.bind_some]
  obtain ⟨dest, stamped, out, hd, hs, ho, hw, hback⟩ := hstage hm
  obtain ⟨dest', stamped', out', hd', hs', ho', hw', hback'⟩ := hstage hm'
  refine ⟨⟨_, hdeliver hd hs ho⟩, fun heq => ?_⟩
  rw [hdeliver hd hs ho, hdeliver hd' hs' ho'] at heq
  obtain ⟨hwsi, hout⟩ := Write.mk.inj (Option.some.inj heq)
  have hid : m.2 = m'.2 := hi.id_unique hd hd' hwsi
  have hst : stamped = stamped' := C.dump_injective hw hw' ho (hout ▸ ho')
  rw [hst, hid, hback'] at hback
  exact Prod.ext (Except.ok.inj hback).symm hid

/-! ## Runs in which the chunks of a message arrive -/

/-- The bytes of the events in which something is received from `wsi`, in order. -/
def chunksOf (wsi : Wsi) : List Event → List Bytes
  | [] => []
  | .receive wsi' data :: es => if wsi' = wsi then data :: chunksOf wsi es else chunksOf wsi es
  | _ :: es => chunksOf wsi es

/-- An event in which something is received from `wsi`. -/
def Event.isFrom (wsi : Wsi) : Event → Bool
  | .receive wsi' _ => wsi' = wsi
  | _ => false

variable (C) in
/-- The writes that such events make in the run `es` from `s`. -/
def writesFrom (wsi : Wsi) (s : State) (es : List Event) : List Write :=
  trace (step C) (fun s e => if e.isFrom wsi then writes C s e else []) s es

variable (C) in
/-- The event is a chunk from `wsi`, or another connection's and leaves every entry of the registry as it
    is. -/
def Undisturbed (wsi : Wsi) (s : State) (e : Event) : Prop :=
  match e with
  | .receive _ _ => True
  | .reorder _ => True
  | .established wsi' _ _ | .closed wsi' =>
      wsi' ≠ wsi ∧ ∀ s', step C s e = some s' → ∀ X, s'.clients.lookup X = s.clients.lookup X

/-- An undisturbing event leaves the registry, as a map, as it is. -/
theorem lookup_undisturbed {s s' : State} {e : Event} {wsi : Wsi} (hu : Undisturbed C wsi s e)
    (h : step C s e = some s') (X : Bytes) : s'.clients.lookup X = s.clients.lookup X := by
  cases e with
  | established _ _ _ | closed _ => exact hu.2 s' h X
  | receive _ _ => cases step_cases h with | receive _ => rfl
  | reorder _ => cases step_cases h with | reorder hp => exact AList.perm_lookup hp

/-- The search for the sender depends on the registry only as a map. -/
theorem senderId_congr {s s' : State} (hi : Inv s) (hi' : Inv s')
    (hl : ∀ X, s'.clients.lookup X = s.clients.lookup X) (wsi : Wsi) :
    senderId s'.clients wsi = senderId s.clients wsi := by
  ext X
  rw [hi.senderId_iff, hi'.senderId_iff, hl]

/-- **What the chunks have written**: each what it would have written at the start. -/
theorem writesFrom_eq {wsi : Wsi} : ∀ (es : List Event) {s s₀ t : State}, Inv s₀ → Inv s →
    (∀ X, s.clients.lookup X = s₀.clients.lookup X) → exec (step C) s es = some t →
    Always (step C) (Undisturbed C wsi) s es →
    writesFrom C wsi s es = (chunksOf wsi es).flatMap (receive C s₀.clients wsi) := by
  intro es
  induction es with
  | nil => intros; rfl
  | cons e es ih =>
      intro s s₀ t hi₀ hi hl hrun hq
      obtain ⟨s', hst, hrest⟩ := exec_cons_some.mp hrun
      have hl' : ∀ X, s'.clients.lookup X = s₀.clients.lookup X := fun X =>
        (lookup_undisturbed hq.1 hst X).trans (hl X)
      have htail := ih hi₀ (inv_step hi hst) hl' hrest (hq.2 s' hst)
      rw [writesFrom] at htail
      rw [writesFrom, trace_cons hst, htail]
      cases e with
      | established _ _ _ | closed _ | reorder _ => rfl
      | receive wsi' data =>
          by_cases hw : wsi' = wsi
          · subst hw
            have hcongr := receive_congr (C := C) hl (senderId_congr hi₀ hi hl wsi') data
            show (if decide (wsi' = wsi') = true then receive C s.clients wsi' data else []) ++ _ =
              (if wsi' = wsi' then data :: chunksOf wsi' es else chunksOf wsi' es).flatMap _
            rw [if_pos (decide_eq_true rfl), if_pos rfl, List.flatMap_cons, hcongr]
          · show (if decide (wsi' = wsi) = true then receive C s.clients wsi' data else []) ++ _ =
              (if wsi' = wsi then data :: chunksOf wsi es else chunksOf wsi es).flatMap _
            rw [if_neg (by simpa using hw), if_neg hw]
            rfl

/-! ## Chunking -/

theorem receive_unwritable {s : State} (hi : Inv s) {wsi : Wsi} (hu : Unwritable s.clients wsi)
    (data : Bytes) : receive C s.clients wsi data = [] := by
  obtain ⟨X, c, hc, hcw, hutf⟩ := hu
  by_cases ha : ∃ message destId dest, Addressed C s.clients data message destId dest
  · obtain ⟨message, destId, dest, ha⟩ := ha
    obtain ⟨stamped, hs⟩ := stampSender_ok s.clients wsi ha.id
    rw [receive_addressed ha hs]
    rw [hi.stampSender_eq hc hcw] at hs
    have hdump : C.dump stamped = none := by
      rw [← Option.not_isSome_iff_eq_none, dump_stamped_iff ha.parsed hs, hutf]
      simp
    rw [hdump]
    rfl
  · exact receive_unaddressed fun m d c hc => ha ⟨m, d, c, hc⟩

/-- Lists of values that a partial function determines are equal when their images are. -/
theorem filterMap_injective {α β : Type} {f : α → Option β} {P : α → Prop}
    (hf : ∀ a b, P a → P b → (∃ w, f a = some w) ∧ (f a = f b → a = b)) :
    ∀ l l' : List α, (∀ a ∈ l, P a) → (∀ a ∈ l', P a) → l.filterMap f = l'.filterMap f → l = l' := by
  intro l
  induction l with
  | nil =>
      intro l' _ hl' h
      cases l' with
      | nil => rfl
      | cons b l' =>
          have hb := hl' b List.mem_cons_self
          obtain ⟨w, hw⟩ := (hf b b hb hb).1
          rw [List.filterMap_cons_some hw] at h
          exact absurd h (by simp)
  | cons a l ih =>
      intro l' hl hl' h
      have ha := hl a List.mem_cons_self
      obtain ⟨w, hw⟩ := (hf a a ha ha).1
      rw [List.filterMap_cons_some hw] at h
      cases l' with
      | nil => exact absurd h (by simp)
      | cons b l' =>
          have hb := hl' b List.mem_cons_self
          obtain ⟨w', hw'⟩ := (hf b b hb hb).1
          rw [List.filterMap_cons_some hw'] at h
          obtain ⟨hhead, htail⟩ := List.cons.inj h
          have hab : a = b := (hf a b ha hb).2 (by rw [hw, hw', hhead])
          rw [hab, ih l' (fun x hx => hl x (List.mem_cons_of_mem _ hx))
            (fun x hx => hl' x (List.mem_cons_of_mem _ hx)) htail]

/-- **Chunking, exactly.** A payload that arrives in chunks, with other connections' callbacks in between
    that leave the registry alone, has the same written as in one call if and only if the messages that
    its chunks are on their own are the one that the whole payload is, if it is one; or nothing its sender
    sends can be written anyway. -/
theorem chunking_iff {s t : State} {wsi : Wsi} {es : List Event} (hs : Reachable (step C) init s)
    (hrun : exec (step C) s es = some t) (hq : Always (step C) (Undisturbed C wsi) s es) :
    writesFrom C wsi s es = writes C s (.receive wsi (chunksOf wsi es).flatten) ↔
      Unwritable s.clients wsi ∨
        (chunksOf wsi es).filterMap (routed C s.clients) =
          (routed C s.clients (chunksOf wsi es).flatten).toList := by
  have hi : Inv s := hs.invariant inv_init (fun _ _ _ hi hst => inv_step hi hst)
  rw [writesFrom_eq es hi hi (fun _ => rfl) hrun hq]
  show _ = receive C s.clients wsi _ ↔ _
  by_cases hu : Unwritable s.clients wsi
  · refine ⟨fun _ => .inl hu, fun _ => ?_⟩
    rw [receive_unwritable hi hu]
    exact List.flatMap_eq_nil_iff.mpr fun data _ => receive_unwritable hi hu data
  · -- both sides are the images of routed messages under `deliver`
    have hchunks : (chunksOf wsi es).flatMap (receive C s.clients wsi) =
        ((chunksOf wsi es).filterMap (routed C s.clients)).filterMap (deliver C s.clients wsi) := by
      rw [List.filterMap_filterMap, List.filterMap_eq_flatMap_toList]
      exact List.flatMap_congr fun data _ => receive_eq s.clients wsi data
    have hwhole : receive C s.clients wsi (chunksOf wsi es).flatten =
        (routed C s.clients (chunksOf wsi es).flatten).toList.filterMap (deliver C s.clients wsi) := by
      rw [receive_eq]
      cases hr : routed C s.clients (chunksOf wsi es).flatten with
      | none => rfl
      | some m => cases hd : deliver C s.clients wsi m <;> simp [hd]
    rw [hchunks, hwhole]
    constructor
    · intro h
      refine .inr (filterMap_injective (P := fun m => ∃ data, routed C s.clients data = some m) ?_ _ _ ?_ ?_ h)
      · rintro m m' ⟨data, hm⟩ ⟨data', hm'⟩
        exact deliver_injective hi hu hm hm'
      · intro m hm
        obtain ⟨data, -, hdata⟩ := List.mem_filterMap.mp hm
        exact ⟨data, hdata⟩
      · intro m hm
        exact ⟨_, Option.mem_toList.mp hm⟩
    · intro h
      rw [h.resolve_left hu]

/-- White space, then a message; something from `b` comes in between. -/
theorem chunking_iff_space_first :
    ∃ s, Reachable (step JsonText.text) init s ∧
      (Unwritable s.clients 2 ∨
        [str " ", str "\x7b\"id\":\"b\"\x7d"].filterMap (routed JsonText.text s.clients) =
          (routed JsonText.text s.clients (str " \x7b\"id\":\"b\"\x7d")).toList) := by
  have hrun : ∃ s ∈ exec (step JsonText.text) init [.established 1 (str "/b") [], .established 2 (str "/c") []],
      ∃ _t ∈ exec (step JsonText.text) s
        [.receive 2 (str " "), .receive 1 (str "x"), .receive 2 (str "\x7b\"id\":\"b\"\x7d")],
      writesFrom JsonText.text 2 s
          [.receive 2 (str " "), .receive 1 (str "x"), .receive 2 (str "\x7b\"id\":\"b\"\x7d")] =
        writes JsonText.text s (.receive 2 (str " \x7b\"id\":\"b\"\x7d")) := by
    decide +kernel
  obtain ⟨s, hs, t, ht, hw⟩ := hrun
  refine ⟨s, ⟨_, hs⟩, (chunking_iff ⟨_, hs⟩ ht ?_).mp hw⟩
  exact ⟨trivial, fun _ _ => ⟨trivial, fun _ _ => ⟨trivial, fun _ _ => trivial⟩⟩⟩

/-- `c` sends `{"id":"b"}`, and it arrives in two calls: neither is a message, and `b` gets nothing. -/
theorem split_message_lost :
    ∃ s ∈ exec (step JsonText.text) init [.established 1 (str "/b") [], .established 2 (str "/c") []],
      ∃ _t ∈ exec (step JsonText.text) s [.receive 2 (str "\x7b\"id\":"), .receive 2 (str "\"b\"\x7d")],
      writesFrom JsonText.text 2 s [.receive 2 (str "\x7b\"id\":"), .receive 2 (str "\"b\"\x7d")] ≠
        writes JsonText.text s (.receive 2 (str "\x7b\"id\":" ++ str "\"b\"\x7d")) := by
  decide +kernel

end Relay

end WebrtcStreamer
