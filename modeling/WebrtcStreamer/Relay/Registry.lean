import WebrtcStreamer.Lib.JsonText
import WebrtcStreamer.Lib.Transition
import WebrtcStreamer.Relay.Callback

/-!
# `Relay.Registry` — the registry over whole runs

`step` drives `callbackWs` with the events that libwebsockets delivers, under its per-connection
discipline: a connection is established once, then receives, then is closed, and its `wsi` is free for
reuse only after that. `State.conns` is not part of the relay: it is the environment's record of the open
connections, each with the id that its path names.

The abstract registry is `Holders`: which connection holds an id, if one does. A connection takes the id
it is established with, from whoever held it, and gives it back when it is closed. `exec_refines` shows
that `clients` is exactly that, `holder_iff` what it means in terms of the history; together they are
`registry_exact`.
-/

namespace WebrtcStreamer

namespace Relay

open Transition

/-- The registry, and the open connections with the id each of them connected under. -/
structure State where
  clients : Clients
  conns : AList (fun _ : Wsi => Option Bytes)

/-- What happens to the relay. `reorder` is no callback: an `unordered_map` may iterate in another order
    after it has been rehashed. -/
inductive Event
  | established (wsi : Wsi) (uri data : Bytes)
  | receive (wsi : Wsi) (data : Bytes)
  | closed (wsi : Wsi)
  | reorder (clients : Clients)

def init : State := { clients := ∅, conns := ∅ }

variable (C : Codec)

/-- One event; not enabled when libwebsockets would not deliver it. -/
def step (s : State) : Event → Option State
  | .established wsi uri data =>
      if wsi ∈ s.conns then none
      else some { clients := (callbackWs C s.clients wsi (.established uri) data).1
                  conns := s.conns.insert wsi (clientId uri) }
  | .receive wsi data =>
      if wsi ∈ s.conns then some { s with clients := (callbackWs C s.clients wsi .receive data).1 }
      else none
  | .closed wsi =>
      if wsi ∈ s.conns then
        some { clients := (callbackWs C s.clients wsi .closed []).1, conns := s.conns.erase wsi }
      else none
  | .reorder clients => if clients.entries.Perm s.clients.entries then some { s with clients := clients }
      else none

/-- The writes that an event makes. -/
def writes (s : State) : Event → List Write
  | .established wsi uri data => (callbackWs C s.clients wsi (.established uri) data).2
  | .receive wsi data => (callbackWs C s.clients wsi .receive data).2
  | .closed wsi => (callbackWs C s.clients wsi .closed []).2
  | .reorder _ => []

variable {C}

/-- **Inversion of a step**: what each event requires and does. -/
inductive Stepped (s : State) : Event → State → Prop
  | established {wsi uri data} : wsi ∉ s.conns →
      Stepped s (.established wsi uri data)
        { clients := established s.clients wsi uri, conns := s.conns.insert wsi (clientId uri) }
  | receive {wsi data} : wsi ∈ s.conns → Stepped s (.receive wsi data) s
  | closed {wsi} : wsi ∈ s.conns →
      Stepped s (.closed wsi) { clients := closed s.clients wsi, conns := s.conns.erase wsi }
  | reorder {clients} : clients.entries.Perm s.clients.entries →
      Stepped s (.reorder clients) { s with clients := clients }

theorem step_cases {s s' : State} {e : Event} (h : step C s e = some s') : Stepped s e s' := by
  cases e with
  | established wsi uri data =>
      simp only [step] at h
      split at h
      · exact absurd h (by simp)
      · rename_i hw
        obtain rfl := Option.some.inj h
        exact .established hw
  | receive wsi data =>
      simp only [step] at h
      split at h
      · rename_i hw
        obtain rfl := Option.some.inj h
        exact .receive hw
      · exact absurd h (by simp)
  | closed wsi =>
      simp only [step] at h
      split at h
      · rename_i hw
        obtain rfl := Option.some.inj h
        exact .closed hw
      · exact absurd h (by simp)
  | reorder clients =>
      simp only [step] at h
      split at h
      · rename_i hp
        obtain rfl := Option.some.inj h
        exact .reorder hp
      · exact absurd h (by simp)

/-! ## The invariant of the registry -/

/-- **The registry invariant.** An entry under `X` has `X` in its id field, and its `wsi` is an open
    connection that connected under `X`. -/
def Inv (s : State) : Prop :=
  ∀ X c, s.clients.lookup X = some c → c.id = X ∧ s.conns.lookup c.wsi = some (some X)

theorem inv_init : Inv init := by
  intro X c h
  rw [init, AList.lookup_empty] at h
  exact absurd h (by simp)

theorem inv_step {s s' : State} {e : Event} (hi : Inv s) (h : step C s e = some s') : Inv s' := by
  cases step_cases h with
  | @established wsi uri data hw =>
      intro X c hc
      change (established s.clients wsi uri).lookup X = some c at hc
      show c.id = X ∧ (s.conns.insert wsi (clientId uri)).lookup c.wsi = some (some X)
      rw [lookup_established] at hc
      split at hc
      · rename_i hX
        obtain rfl := Option.some.inj hc
        exact ⟨rfl, by rw [AList.lookup_insert, hX]⟩
      · obtain ⟨hid, hconn⟩ := hi X c hc
        have hne : c.wsi ≠ wsi := by
          rintro rfl
          rw [AList.lookup_eq_none.mpr hw] at hconn
          exact absurd hconn (by simp)
        exact ⟨hid, by rw [AList.lookup_insert_ne hne]; exact hconn⟩
  | receive _ => exact hi
  | @closed wsi hw =>
      intro X c hc
      obtain ⟨hl, hne⟩ := lookup_closed.mp hc
      obtain ⟨hid, hconn⟩ := hi X c hl
      exact ⟨hid, by rw [AList.lookup_erase_ne hne]; exact hconn⟩
  | reorder hp =>
      intro X c hc
      exact hi X c ((AList.perm_lookup hp).symm.trans hc)

theorem exec_inv {es : List Event} {s : State} (h : exec (step C) init es = some s) : Inv s :=
  exec_invariant inv_init (fun _ _ _ hi hst => inv_step hi hst) es s h

/-- A connection is stored under one id at most. -/
theorem Inv.id_unique {s : State} (hi : Inv s) {X Y : Bytes} {c d : Client}
    (hc : s.clients.lookup X = some c) (hd : s.clients.lookup Y = some d) (hw : c.wsi = d.wsi) : X = Y := by
  have hX := (hi X c hc).2
  have hY := (hi Y d hd).2
  rw [hw, hY] at hX
  exact (Option.some.inj (Option.some.inj hX)).symm

/-- **The search for the sender**, whatever the iteration order: it finds an id exactly when the
    connection is registered, and then it is the id the connection is registered under. -/
theorem Inv.senderId_iff {s : State} (hi : Inv s) {wsi : Wsi} {X : Bytes} :
    senderId s.clients wsi = some X ↔ ∃ c, s.clients.lookup X = some c ∧ c.wsi = wsi := by
  constructor
  · intro h
    obtain ⟨pair, hf, hid⟩ := Option.map_eq_some_iff.mp h
    have hl : s.clients.lookup pair.1 = some pair.2 :=
      AList.mem_lookup_iff.mpr (List.mem_of_find?_eq_some hf)
    have hX : pair.1 = X := (hi pair.1 pair.2 hl).1.symm.trans hid
    have hw : (pair.2.wsi == wsi) = true := by have := List.find?_some hf; exact this
    exact ⟨pair.2, hX ▸ hl, beq_iff_eq.mp hw⟩
  · rintro ⟨c, hc, rfl⟩
    have hmem : (⟨X, c⟩ : Sigma (fun _ : Bytes => Client)) ∈ s.clients.entries :=
      AList.mem_lookup_iff.mp hc
    cases hf : s.clients.entries.find? (fun pair => pair.2.wsi == c.wsi) with
    | none => exact absurd (List.find?_eq_none.mp hf _ hmem) (by simp)
    | some pair =>
        have hl : s.clients.lookup pair.1 = some pair.2 :=
          AList.mem_lookup_iff.mpr (List.mem_of_find?_eq_some hf)
        have hw : pair.2.wsi = c.wsi := by have := List.find?_some hf; exact beq_iff_eq.mp this
        have hX : pair.1 = X := hi.id_unique hl hc hw
        rw [senderId, hf, Option.map_some, (hi pair.1 pair.2 hl).1, hX]

/-- A registered sender's own id is what is put into its messages. -/
theorem Inv.stampSender_eq {s : State} (hi : Inv s) {wsi : Wsi} {X : Bytes} {c : Client}
    (hc : s.clients.lookup X = some c) (hw : c.wsi = wsi) (message : Json) :
    stampSender s.clients wsi message = message.assign (str "id") (.string X) := by
  rw [stampSender, hi.senderId_iff.mpr ⟨c, hc, hw⟩]

/-- Every write of an event goes to a registered connection. -/
theorem Inv.write_registered {s : State} {e : Event} {s' : State} (h : step C s e = some s') {w : Write}
    (hw : w ∈ writes C s e) : ∃ X c, s'.clients.lookup X = some c ∧ c.wsi = w.wsi := by
  have hrec : ∀ {clients : Clients} {wsi : Wsi} {data : Bytes}, w ∈ receive C clients wsi data →
      ∃ X c, clients.lookup X = some c ∧ c.wsi = w.wsi := by
    intro clients wsi data hmem
    by_cases ha : ∃ message destId dest, Addressed C clients data message destId dest
    · obtain ⟨message, destId, dest, ha⟩ := ha
      obtain ⟨stamped, hs⟩ := stampSender_ok clients wsi ha.id
      rw [receive_addressed ha hs, Option.mem_toList, Option.map_eq_some_iff] at hmem
      obtain ⟨out, _, rfl⟩ := hmem
      exact ⟨destId, dest, ha.registered, rfl⟩
    · rw [receive_unaddressed (fun m d c hc => ha ⟨m, d, c, hc⟩)] at hmem
      exact absurd hmem (by simp)
  cases step_cases h with
  | established _ => exact hrec hw
  | receive _ => exact hrec hw
  | closed _ => exact absurd hw (by simp [writes, callbackWs])
  | reorder _ => exact absurd hw (by simp [writes])

/-! ## The abstract registry -/

/-- Which connection holds an id. -/
abbrev Holders := Bytes → Option Wsi

/-- A connection takes the id its path names and gives it back when it closes. -/
def Holders.step (h : Holders) : Event → Holders
  | .established wsi uri _ => fun X => if clientId uri = some X then some wsi else h X
  | .closed wsi => fun X => if h X = some wsi then none else h X
  | _ => h

/-- The holders after a history. -/
def holders (es : List Event) : Holders := es.foldl Holders.step (fun _ => none)

theorem holders_snoc (es : List Event) (e : Event) : holders (es ++ [e]) = (holders es).step e := by
  rw [holders, List.foldl_append]
  rfl

/-- **Refinement.** After every run the registry is the abstract one, with the id in the id field. -/
theorem exec_refines : ∀ (es : List Event) (s : State), exec (step C) init es = some s →
    ∀ X, s.clients.lookup X = (holders es X).map (fun wsi => { wsi := wsi, id := X }) := by
  refine exec_induction (fun X => ?_) (fun es s e s' hrun ih hst X => ?_)
  · rw [init, AList.lookup_empty]
    rfl
  rw [holders_snoc]
  cases step_cases hst with
  | @established wsi uri data hw =>
      show (established s.clients wsi uri).lookup X = _
      rw [lookup_established, ih X]
      show _ = Option.map _ (if clientId uri = some X then some wsi else holders es X)
      split <;> rfl
  | receive _ => exact ih X
  | @closed wsi hw =>
      show (closed s.clients wsi).lookup X =
        Option.map _ (if holders es X = some wsi then none else holders es X)
      ext c
      rw [lookup_closed, ih X]
      cases hh : holders es X with
      | none => simp
      | some w =>
          by_cases hw' : w = wsi
          · subst hw'
            simp only [Option.map_some, Option.some.injEq, if_true, Option.map_none,
              reduceCtorEq, iff_false, not_and, not_not]
            rintro rfl
            rfl
          · rw [if_neg (fun h => hw' (Option.some.inj h))]
            simp only [Option.map_some, Option.some.injEq, and_iff_left_iff_imp]
            rintro rfl
            exact hw'
  | reorder hp => exact (AList.perm_lookup hp).trans (ih X)

/-- `wsi` is the connection most recently established with a path that names `X`, and has not been closed
    since. -/
def Latest (es : List Event) (X : Bytes) (wsi : Wsi) : Prop :=
  ∃ pre uri data post, es = pre ++ .established wsi uri data :: post ∧ clientId uri = some X ∧
    (∀ wsi' uri' data', .established wsi' uri' data' ∈ post → clientId uri' ≠ some X) ∧
    .closed wsi ∉ post

/-- `Latest` when one more event happens: either the event itself is the establishment, or it is neither
    a later one nor the close. -/
theorem latest_snoc {es : List Event} {e : Event} {X : Bytes} {wsi : Wsi} :
    Latest (es ++ [e]) X wsi ↔
      (∃ uri data, e = .established wsi uri data ∧ clientId uri = some X) ∨
      (Latest es X wsi ∧ (∀ wsi' uri' data', e = .established wsi' uri' data' → clientId uri' ≠ some X) ∧
        e ≠ .closed wsi) := by
  constructor
  · rintro ⟨pre, uri, data, post, heq, hid, hlast, hopen⟩
    rcases List.eq_nil_or_concat' post with rfl | ⟨post, e', rfl⟩
    · obtain ⟨-, he⟩ := List.append_inj' heq rfl
      exact .inl ⟨uri, data, List.cons.inj he |>.1, hid⟩
    · have hassoc : es ++ [e] = (pre ++ .established wsi uri data :: post) ++ [e'] := by
        rw [heq, List.append_assoc, List.cons_append]
      obtain ⟨rfl, he⟩ := List.append_inj' hassoc rfl
      obtain rfl := (List.cons.inj he).1
      have hmem : ∀ {x}, x ∈ post → x ∈ post ++ [e] := fun h => List.mem_append_left _ h
      have hself : e ∈ post ++ [e] := List.mem_append_right _ (List.mem_singleton_self e)
      refine .inr ⟨⟨pre, uri, data, post, rfl, hid, ?_, fun h => hopen (hmem h)⟩, ?_, ?_⟩
      · intro wsi' uri' data' h
        exact hlast wsi' uri' data' (hmem h)
      · intro wsi' uri' data' he
        exact hlast wsi' uri' data' (he ▸ hself)
      · intro he
        exact hopen (he ▸ hself)
  · rintro (⟨uri, data, rfl, hid⟩ | ⟨⟨pre, uri, data, post, rfl, hid, hlast, hopen⟩, hnew, hclosed⟩)
    · exact ⟨es, uri, data, [], rfl, hid, by simp, by simp⟩
    · refine ⟨pre, uri, data, post ++ [e], by rw [List.append_assoc, List.cons_append], hid, ?_, ?_⟩
      · intro wsi' uri' data' h
        rcases List.mem_append.mp h with h | h
        · exact hlast wsi' uri' data' h
        · exact hnew wsi' uri' data' (List.mem_singleton.mp h).symm
      · intro h
        rcases List.mem_append.mp h with h | h
        · exact hopen h
        · exact hclosed (List.mem_singleton.mp h).symm

/-- **The abstract registry in terms of the history.** -/
theorem holder_iff (es : List Event) {X : Bytes} {wsi : Wsi} :
    holders es X = some wsi ↔ Latest es X wsi := by
  induction es using List.reverseRecOn generalizing wsi with
  | nil =>
      constructor
      · intro h
        exact absurd h (by simp [holders])
      · rintro ⟨pre, uri, data, post, heq, -⟩
        exact absurd heq (by simp)
  | append_singleton es e ih =>
      rw [holders_snoc, latest_snoc, ← ih]
      cases e with
      | established wsi' uri data =>
          show (if clientId uri = some X then some wsi' else holders es X) = some wsi ↔ _
          by_cases hX : clientId uri = some X
          · rw [if_pos hX]
            constructor
            · rintro h
              obtain rfl := Option.some.inj h
              exact .inl ⟨uri, data, rfl, hX⟩
            · rintro (⟨_, _, he, -⟩ | ⟨-, hnew, -⟩)
              · rw [(Event.established.inj he).1]
              · exact absurd hX (hnew _ _ _ rfl)
          · rw [if_neg hX]
            constructor
            · intro h
              refine .inr ⟨h, ?_, Event.noConfusion⟩
              rintro _ _ _ he
              rw [← (Event.established.inj he).2.1]
              exact hX
            · rintro (⟨_, _, he, hid⟩ | ⟨h, -, -⟩)
              · rw [← (Event.established.inj he).2.1] at hid
                exact absurd hid hX
              · exact h
      | closed wsi' =>
          show (if holders es X = some wsi' then none else holders es X) = some wsi ↔ _
          split
          · rename_i hh
            refine ⟨fun h => absurd h (by simp), ?_⟩
            rintro (⟨_, _, he, -⟩ | ⟨h, -, hne⟩)
            · exact absurd he (by simp)
            · exact absurd (congrArg Event.closed (Option.some.inj (hh.symm.trans h))) hne
          · rename_i hh
            constructor
            · intro h
              refine .inr ⟨h, by simp, ?_⟩
              intro he
              exact hh (Event.closed.inj he ▸ h)
            · rintro (⟨_, _, he, -⟩ | ⟨h, -, -⟩)
              · exact absurd he (by simp)
              · exact h
      | receive _ _ | reorder _ =>
          show holders es X = some wsi ↔ _
          simp

/-! ## The registry, exactly -/

/-- **The registry after any run.** There is an entry under `X` exactly when the connection most recently
    established for `X` is still open, and the entry is that connection with the id `X`. So a connection is
    stored under one id at most, only open connections are stored or written to, and the close of a
    superseded connection leaves the newer registration alone. -/
theorem registry_exact {es : List Event} {s : State} (h : exec (step C) init es = some s) :
    (∀ X c, s.clients.lookup X = some c ↔ Latest es X c.wsi ∧ c.id = X) ∧
    (∀ X Y c d, s.clients.lookup X = some c → s.clients.lookup Y = some d → c.wsi = d.wsi → X = Y) ∧
    (∀ X c, s.clients.lookup X = some c → c.wsi ∈ s.conns) ∧
    (∀ e s', step C s e = some s' → ∀ w ∈ writes C s e, w.wsi ∈ s'.conns) ∧
    (∀ wsi s', step C s (.closed wsi) = some s' → ∀ X c, s.clients.lookup X = some c → c.wsi ≠ wsi →
      s'.clients.lookup X = some c) := by
  have hi : Inv s := exec_inv h
  have hopen : ∀ {s : State}, Inv s → ∀ X c, s.clients.lookup X = some c → c.wsi ∈ s.conns :=
    fun hi X c hc => AList.lookup_isSome.mp (by rw [(hi X c hc).2]; rfl)
  refine ⟨fun X c => ?_, fun X Y c d hc hd hw => hi.id_unique hc hd hw, hopen hi, ?_, ?_⟩
  · rw [exec_refines es s h X, Option.map_eq_some_iff]
    constructor
    · rintro ⟨wsi, hh, rfl⟩
      exact ⟨(holder_iff es).mp hh, rfl⟩
    · rintro ⟨hl, rfl⟩
      exact ⟨c.wsi, (holder_iff es).mpr hl, rfl⟩
  · intro e s' hst w hw
    obtain ⟨X, c, hc, hwsi⟩ := Inv.write_registered hst hw
    exact hwsi ▸ hopen (inv_step hi hst) X c hc
  · intro wsi s' hst X c hc hne
    cases step_cases hst with
    | closed _ => exact lookup_closed.mpr ⟨hc, hne⟩

/-- A peer reconnects as `b` before the relay sees its old connection close. -/
theorem registry_exact_late_close :
    ∃ s, exec (step JsonText.text) init [.established 1 (str "/b") [], .established 2 (str "/b") [],
        .closed 1] = some s ∧ s.clients.lookup (str "b") = some { wsi := 2, id := str "b" } := by
  have hrun : (exec (step JsonText.text) init [.established 1 (str "/b") [], .established 2 (str "/b") [],
      .closed 1]).isSome := by decide +kernel
  obtain ⟨s, hs⟩ := Option.isSome_iff_exists.mp hrun
  refine ⟨s, hs, ((registry_exact hs).1 _ _).mpr ⟨?_, rfl⟩⟩
  exact ⟨[.established 1 (str "/b") []], str "/b", [], [.closed 1], rfl, by decide, by simp, by simp⟩

end Relay

end WebrtcStreamer
