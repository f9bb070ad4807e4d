import WebrtcStreamer.Lib.JsonText
import WebrtcStreamer.Streamer.Provenance

/-!
# `Streamer.StaleDisconnect` — whose entry a disconnect erases

A disconnect carries the id of its client, not the client; by the time the loop handles it, another client
may be registered under the id. One session reports its end more than once (`Disconnected` or `Failed`,
then `Closed`), so its second disconnect can stand in the queue behind a request for a new session.

`stale_disconnect` shows that this is the only way: as long as no request is granted while a disconnect for
its id is queued, every disconnect finds its own client or nothing. `stale_disconnect_erases_successor` is
the run in which the second disconnect of a session takes down the next one.
-/

namespace WebrtcStreamer

namespace Streamer

open Transition

variable {ι : Type} (C : Codec)

/-- A client's disconnect for this id is in the signaling queue. -/
def DisconnectPending (s : State ι) (id : Bytes) : Prop :=
  ∃ item ∈ s.signalingQueue.queue,
    (∃ c, item.source = .client c) ∧ C.dump (disconnectMessage id) = some item.text

/-- A request that registers a client does so while no disconnect for its id is pending. -/
def RegistersClean (s : State ι) : Action ι → Prop
  | .loop .emplace =>
      ∀ id c source, s.loop = .emplacing id c source → id ∉ s.clientsMap → ¬ DisconnectPending C s id
  | _ => True

/-- An erase for a disconnect that `c` produced finds `c` registered, or nobody. -/
def ErasesOwn (s : State ι) : Action ι → Prop
  | .loop .erase =>
      ∀ id c, s.loop = .erasing id (.client c) →
        s.clientsMap.lookup id = none ∨ s.clientsMap.lookup id = some c
  | _ => True

/-! ## The invariant -/

/-- If the item is a disconnect, its own client is registered under its id, or nobody is. -/
def ItemOwn (m : ClientsMap) (item : Item ι) : Prop :=
  ∀ c X, item.source = .client c → C.dump (disconnectMessage X) = some item.text →
    m.lookup X = none ∨ m.lookup X = some c

structure Own (s : State ι) : Prop where
  queue : ∀ item ∈ s.signalingQueue.queue, ItemOwn C s.clientsMap item
  holding : ∀ item rest, s.collector = .holding item rest → ItemOwn C s.clientsMap item
  erasing : ∀ id c, s.loop = .erasing id (.client c) →
    s.clientsMap.lookup id = none ∨ s.clientsMap.lookup id = some c

variable {C}

theorem own_init : Own C (init ι) where
  queue := by intro item h; exact absurd h (by simp [init, BlockingQueue.new])
  holding := by intro item rest h; exact absurd h (by simp [init])
  erasing := by intro id c h; exact absurd h (by simp [init])

theorem ItemOwn.erase {m : ClientsMap} {item : Item ι} (h : ItemOwn C m item) (id : Bytes) :
    ItemOwn C (m.erase id) item := by
  intro c X hc hd
  by_cases hX : X = id
  · rw [hX, AList.lookup_erase]
    exact .inl rfl
  · rw [AList.lookup_erase_ne hX]
    exact h c X hc hd

/-- A message just taken from a registered client is its own. -/
theorem itemOwn_of_registered {s : State ι} (hs : Sane s) {X text : Bytes} {c : ClientRef} {k : Client}
    (hc : s.clientsMap.lookup X = some c) (hk : s.clients[c]? = some k) (he : Emitted C k.id text) :
    ItemOwn C s.clientsMap ({ text := text, source := .client c } : Item ι) := by
  intro d Y hd hdump
  obtain rfl := Source.client.inj hd
  obtain ⟨k', hk', hid, -⟩ := hs.registered X c hc
  obtain rfl := Option.some.inj (hk.symm.trans hk')
  have hY : Y = X := (emitted_disconnect he hdump).trans hid
  rw [hY]
  exact .inr hc

theorem Own.push {s : State ι} (ho : Own C s) {item : Item ι} {q : BlockingQueue (Item ι)}
    (hitem : ItemOwn C s.clientsMap item) (hq : s.signalingQueue.tryPush item = some q) :
    ∀ x ∈ q.queue, ItemOwn C s.clientsMap x := by
  intro x hx
  rcases BlockingQueue.mem_of_tryPush hq hx with hx | rfl
  · exact ho.queue x hx
  · exact hitem

/-! ## Each thread -/

theorem Own.stepOnMessage {s s' : State ι} {a : OnMessageAction ι} (ht : Traced C s) (ho : Own C s)
    (h : OnMessageStepped C s a s') : Own C s' := by
  cases h with
  | dropped _ _ => exact ho
  | received _ _ => exact { ho with }
  | pushed hpc hq =>
      obtain ⟨tag, data, hsrc, -⟩ := ht.onMessage _ hpc
      refine { ho with queue := ho.push ?_ hq }
      intro c X hc
      exact absurd (hsrc.symm.trans hc) (by simp)

theorem Own.stepCollector {s s' : State ι} {a : CollectorAction} (hs : Sane s) (ht : Traced C s)
    (ho : Own C s) (h : CollectorStepped s a s') : Own C s' := by
  cases h with
  | checked _ =>
      refine { ho with holding := fun item rest h => ?_ }
      change (if s.doTerm then Collector.done else .locking) = _ at h
      split at h <;> exact absurd h (by simp)
  | locked _ _ _ | passed _ _ _ | unlocked _ =>
      exact { ho with holding := fun item rest h => absurd h (by simp) }
  | @got _ e rest client text q hpc hk hq =>
      -- the client visited is registered at this moment
      refine { ho with holding := fun item rest' h => ?_ }
      obtain ⟨rfl, -⟩ := Collector.holding.inj h
      have hreg := hs.collecting (e :: rest) (by rw [hpc]; rfl) e List.mem_cons_self
      obtain ⟨text', rest'', hqueue, hr, -⟩ := (BlockingQueue.tryPopFor_cases hq).resolve_left (by simp)
      obtain rfl := Option.some.inj hr
      have he := (ht.outgoing e.2 client hk).2 text (by rw [hqueue]; exact List.mem_cons_self)
      exact itemOwn_of_registered hs hreg hk he
  | pushed hpc hq =>
      exact { ho with
        queue := ho.push (ho.holding _ _ hpc) hq
        holding := fun item rest h => absurd h (by simp) }

theorem Own.stepLoop {s s' : State ι} {a : LoopAction} (hclean : RegistersClean C s (.loop a))
    (ht : Traced C s) (ho : Own C s) (h : LoopStepped C s a s') : Own C s' := by
  cases h with
  | checked _ =>
      refine { ho with erasing := fun id c h => ?_ }
      change (if s.doTerm then Loop.joining else .polling) = _ at h
      split at h <;> exact absurd h (by simp)
  | stopped _ | absent _ _ _ | sent _ | joined _ _ | answered _ _ _ | discarded _ _ _ _ =>
      exact { ho with erasing := fun id c h => absurd h (by simp) }
  | threw _ hq _ =>
      obtain ⟨rest, hqueue, rfl⟩ := BlockingQueue.tryPop_some hq
      refine { ho with queue := fun x hx => ho.queue x ?_ }
      rw [hqueue]
      exact List.mem_cons_of_mem _ hx
  | sendThrew _ => exact { ho with }
  | @popped item q verdict hpc hq hv =>
      obtain ⟨rest, hqueue, rfl⟩ := BlockingQueue.tryPop_some hq
      have hitem := ho.queue item (by rw [hqueue]; exact List.mem_cons_self)
      have hrest : ∀ x ∈ rest, ItemOwn C s.clientsMap x := by
        intro x hx
        exact ho.queue x (by rw [hqueue]; exact List.mem_cons_of_mem _ hx)
      cases verdict with
      | skip | request _ | answer _ _ | send _ =>
          exact { ho with queue := hrest, erasing := fun id c h => absurd h (by simp [dispatch]) }
      | erase id =>
          refine { queue := hrest, holding := ho.holding, erasing := fun id' c h => ?_ }
          obtain ⟨rfl, hsrc⟩ := Loop.erasing.inj h
          -- an erase comes from a disconnect, and that names the id erased
          have hfrom := ht.queue item (by rw [hqueue]; exact List.mem_cons_self)
          rcases hfrom with ⟨tag, data, hsrc', -⟩ | ⟨d, X, -, -, hd | ⟨type, sdp, hd⟩⟩
          · exact absurd (hsrc'.symm.trans hsrc) (by simp)
          · rw [process_disconnect s.clientsMap hd] at hv
            obtain rfl := Verdict.erase.inj (Except.ok.inj hv)
            exact hitem c X hsrc hd
          · rw [process_description s.clientsMap hd] at hv
            exact absurd (Except.ok.inj hv) (by simp)
  | @emplaced id c source hpc hshared hid =>
      have hcol := (sharedHeld_eq_false.mp hshared).1
      refine { queue := fun item hitem d X hd hdump => ?_
               holding := fun item rest h => ?_
               erasing := fun id' c' h => absurd h (by simp) }
      · -- the only entry that is new is the one the condition is about
        show (s.clientsMap.insert id c).lookup X = none ∨ (s.clientsMap.insert id c).lookup X = some d
        have hX : X ≠ id := by
          rintro rfl
          exact hclean X c source hpc hid ⟨item, hitem, ⟨d, hd⟩, hdump⟩
        rw [AList.lookup_insert_ne hX]
        exact ho.queue item hitem d X hd hdump
      · rw [h] at hcol
        exact absurd hcol (by simp [Collector.rest])
  | erased _ _ _ _ =>
      -- an absent entry is as good as one's own
      exact { queue := fun item h => (ho.queue item h).erase _
              holding := fun item rest h => (ho.holding item rest h).erase _
              erasing := fun id' c' h => absurd h (by simp) }
  | @destroyed c client client' hpc hk hd =>
      refine { ho with erasing := fun id c' h => ?_ }
      change (if client'.lifetime = .destroyed then Loop.top else .destroying c) = _ at h
      split at h <;> exact absurd h (by simp)

theorem Own.stepDestructor {s s' : State ι} (hs : Sane s) (ho : Own C s) (h : DestructorStepped s s') :
    Own C s' := by
  cases h with
  | started _ | webSocketClosed _ | signalingJoined _ _ | framesStopped _ | multimediaJoined _ _ | finished _ =>
      exact { ho with }
  | signalingStopped _ => exact { ho with queue := fun x hx => ho.queue x hx }
  | released hpc _ _ =>
      have hloop : s.loop = .done := hs.signalingJoined (by rw [hpc]; rfl)
      exact { queue := fun item h => (ho.queue item h).erase _
              holding := fun item rest h => (ho.holding item rest h).erase _
              erasing := fun id c h => absurd (hloop.symm.trans h) (by simp) }
  | destroyed _ _ _ => exact { ho with }

theorem own_step {s s' : State ι} {a : Action ι} (hclean : RegistersClean C s a) (hs : Sane s)
    (ht : Traced C s) (ho : Own C s) (h : step C s a = some s') : Own C s' := by
  cases (step_cases h).2 with
  | onMessage h => exact ho.stepOnMessage ht h
  | collector h => exact ho.stepCollector hs ht h
  | loop h => exact ho.stepLoop hclean ht h
  | multimedia h =>
      obtain ⟨m, q, f, rfl⟩ := stepMultimedia_frame h
      exact { ho with }
  | pushData h =>
      obtain ⟨cs, p, q, rfl⟩ := stepPushData_frame h
      exact { ho with }
  | client hk hc => exact { ho with }
  | destructor h => exact ho.stepDestructor hs h

/-! ## Every run -/

/-- **Disconnects and sessions.** In every run in which no request registers a client while a disconnect for
    its id is pending, an erase for a disconnect finds the client that produced it, or nobody. -/
theorem stale_disconnect (as : List (Action ι)) :
    Always (step C) (RegistersClean C) (init ι) as → Always (step C) ErasesOwn (init ι) as := by
  refine always_imp (I := fun s => Sane s ∧ Traced C s ∧ Own C s) ?_ ?_ as (init ι)
    ⟨sane_init, traced_init, own_init⟩
  · rintro s a s' hclean ⟨hs, ht, ho⟩ hst
    exact ⟨sane_step hs hst, traced_step hs ht hst, own_step hclean hs ht ho hst⟩
  · rintro s a - ⟨-, -, ho⟩
    cases a with
    | loop a =>
        cases a with
        | erase => exact ho.erasing
        | check | pop | emplace | destroy | answer | send _ | join => trivial
    | onMessage _ | collector _ | multimedia _ | pushData _ | client _ _ | destructor => trivial

/-! ## Two sessions under one id -/

/-- A request for `b` arrives on the WebSocket. -/
def requestArrives : List (Action Unit) :=
  [.onMessage (.receive () (.text (str "\x7b\"id\":\"b\",\"type\":\"request\"\x7d"))), .onMessage .push]

/-- The loop handles it. -/
def requestHandled : List (Action Unit) := [.loop .check, .loop .pop, .loop .emplace]

/-- The first client under `b` reports a state, and the collector queues its disconnect. -/
def disconnectQueued (state : PeerState) : List (Action Unit) :=
  [.client 0 (.stateChange state), .client 0 (.push 0), .collector .check,
    .collector (.lock [⟨str "b", 0⟩]), .collector (.get true), .collector .push, .collector .unlock]

/-- The loop handles the disconnect and destroys the client. -/
def disconnectHandled : List (Action Unit) :=
  [.loop .check, .loop .pop, .loop .erase, .loop .destroy, .loop .destroy, .loop .destroy, .loop .destroy,
    .client 0 .check, .loop .destroy]

/-- A request registers a client while nothing is queued. -/
def registersIdle (s : State Unit) : Action Unit → Bool
  | .loop .emplace => s.signalingQueue.queue.isEmpty
  | _ => true

/-- A session that ends before the next one is asked for. -/
def sessionsApart : List (Action Unit) :=
  requestArrives ++ requestHandled ++ disconnectQueued .failed ++ disconnectHandled ++ requestArrives ++ requestHandled

theorem stale_disconnect_sessions_apart :
    (∃ s ∈ exec (step JsonText.text) (init Unit) sessionsApart, s.clientsMap.lookup (str "b") = some 1) ∧
      Always (step JsonText.text) ErasesOwn (init Unit) sessionsApart := by
  refine ⟨by decide +kernel, stale_disconnect _ (always_of_check (p := registersIdle) ?_ _ _ (by decide +kernel))⟩
  intro s a h
  cases a with
  | loop a =>
      cases a with
      | emplace =>
          rintro id c source - - ⟨item, hitem, -⟩
          rw [List.isEmpty_iff.mp h] at hitem
          exact absurd hitem (by simp)
      | check | pop | erase | destroy | answer | send _ | join => trivial
  | onMessage _ | collector _ | multimedia _ | pushData _ | client _ _ | destructor => trivial

/-- The next session is asked for between the first one's `Disconnected` and its `Closed`: the first
    disconnect ends the session, the request starts the next one, and the second disconnect is about to
    erase that. -/
theorem stale_disconnect_erases_successor :
    ∃ s ∈ exec (step JsonText.text) (init Unit)
        (requestArrives ++ requestHandled ++ disconnectQueued .disconnected ++ requestArrives ++
          disconnectQueued .closed ++ disconnectHandled ++ requestHandled ++ [.loop .check, .loop .pop]),
      s.loop = .erasing (str "b") (.client 0) ∧ s.clientsMap.lookup (str "b") = some 1 ∧
        (step JsonText.text s (.loop .erase)).isSome := by
  decide +kernel

end Streamer

end WebrtcStreamer
