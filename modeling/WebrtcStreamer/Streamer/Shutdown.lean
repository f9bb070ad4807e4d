import WebrtcStreamer.Lib.JsonText
import WebrtcStreamer.Streamer.Lifetimes
import WebrtcStreamer.Streamer.Provenance

/-!
# `Streamer.Shutdown` — the destructor comes to its end

`~WebRTCStreamer` sets a flag, stops a queue, and joins a thread that joins another; `~Client` does the same
for one client, under the exclusive lock of the registry. Wherever the threads are when this begins, they
must come to their ends.

`Housed` is the invariant of the two destructors: what each of their statements leaves behind, and that every
client that has not been destroyed is somebody's to destroy. From it follows that after `_signalingQueue.stop()`
there is always somebody who can move, until everybody is done. The loops end because none of them gets past
its check of `_do_term` again.
-/

namespace WebrtcStreamer

namespace Streamer

open Transition

variable {ι : Type} {C : Codec}

/-! ## One client -/

/-- `~Client` has set `_do_term`. -/
def Lifetime.termSet : Lifetime → Bool
  | .live | .setTerm => false
  | .stopIn | .stopOut | .close | .join | .destroyed => true

/-- `~Client` has stopped `_signalingQueueIn`. -/
def Lifetime.inStopped : Lifetime → Bool
  | .live | .setTerm | .stopIn => false
  | .stopOut | .close | .join | .destroyed => true

/-- What the statements of `~Client` have left behind. -/
structure Client.Orderly (k : Client) : Prop where
  term : k.doTerm = k.lifetime.termSet
  stopped : k.signalingQueueIn.stopped = k.lifetime.inStopped
  size : k.signalingQueueIn.maxSize = 32
  ended : k.thread = .done → k.doTerm = true
  joined : k.lifetime = .destroyed → k.thread = .done

theorem Client.orderly_new (id : Bytes) : (Client.new id).Orderly where
  term := rfl
  stopped := rfl
  size := rfl
  ended := fun h => absurd h (by simp [Client.new])
  joined := fun h => absurd h (by simp [Client.new])

theorem Client.Orderly.release {k : Client} (h : k.Orderly) (hlive : k.lifetime = .live) :
    { k with lifetime := .setTerm }.Orderly where
  term := by rw [h.term, hlive]; rfl
  stopped := by rw [h.stopped, hlive]; rfl
  size := h.size
  ended := h.ended
  joined := fun hd => absurd hd (by simp)

theorem Client.Orderly.destroy {k k' : Client} (h : k.Orderly) (hd : k.destroy = some k') : k'.Orderly := by
  have hterm := h.term
  have hstopped := h.stopped
  cases destroy_stepped hd with
  | termSet hl =>
      rw [hl] at hstopped
      exact ⟨rfl, hstopped, h.size, fun _ => rfl, fun hdone => absurd hdone (by simp)⟩
  | inStopped hl =>
      rw [hl] at hterm
      exact ⟨hterm, rfl, h.size, h.ended, fun hdone => absurd hdone (by simp)⟩
  | outStopped hl | closed hl =>
      rw [hl] at hterm hstopped
      exact ⟨hterm, hstopped, h.size, h.ended, fun hdone => absurd hdone (by simp)⟩
  | joined hl hdone =>
      rw [hl] at hterm hstopped
      exact ⟨hterm, hstopped, h.size, h.ended, fun _ => hdone⟩

theorem Client.Orderly.step {k k' : Client} {a : ClientAction} {f : Option Fault} (h : k.Orderly)
    (hst : ClientStepped C k a k' f) : k'.Orderly ∧ k'.lifetime = k.lifetime := by
  -- a thread that moves has not ended
  have hmoves : k.thread ≠ .done → k.lifetime ≠ .destroyed := fun hne hd => hne (h.joined hd)
  cases hst with
  | checked hpc =>
      have hne := hmoves (by rw [hpc]; simp)
      refine ⟨⟨h.term, h.stopped, h.size, ?_, fun hd => absurd hd hne⟩, rfl⟩
      intro hdone
      by_cases hterm : k.doTerm = true
      · exact hterm
      · simp [hterm] at hdone
  | stopped hpc _ | applied hpc =>
      have hne := hmoves (by rw [hpc]; simp)
      exact ⟨⟨h.term, h.stopped, h.size, fun hdone => absurd hdone (by simp), fun hd => absurd hd hne⟩, rfl⟩
  | popped hpc hq =>
      have hne := hmoves (by rw [hpc]; simp)
      have hstopped := (BlockingQueue.stopped_of_tryPop hq).trans h.stopped
      have hsize := (BlockingQueue.maxSize_of_tryPop hq).trans h.size
      exact ⟨⟨h.term, hstopped, hsize, fun hdone => absurd hdone (by simp), fun hd => absurd hd hne⟩, rfl⟩
  | threw _ => exact ⟨h, rfl⟩
  | stateChanged _ | gatheringStateChanged _ | pushed _ _ _ =>
      exact ⟨⟨h.term, h.stopped, h.size, h.ended, h.joined⟩, rfl⟩

/-- The client's thread can move while it has something to take or its queue has been stopped. -/
theorem Client.thread_moves {k : Client} (hne : k.thread ≠ .done)
    (hready : k.signalingQueueIn.queue ≠ [] ∨ k.signalingQueueIn.stopped = true) :
    ∃ a, (a = .check ∨ a = .pop ∨ a = .apply false) ∧ (stepClient C k a).isSome := by
  cases hpc : k.thread with
  | done => exact absurd hpc hne
  | top => exact ⟨.check, .inl rfl, by simp [stepClient, hpc]⟩
  | applying sdp => exact ⟨.apply false, .inr (.inr rfl), by simp [stepClient, hpc]⟩
  | polling =>
      refine ⟨.pop, .inr (.inl rfl), ?_⟩
      obtain ⟨⟨r, q⟩, hq⟩ := Option.isSome_iff_exists.mp (BlockingQueue.tryPop_of_ready hready)
      cases r <;> simp [stepClient, hpc, hq]

/-! ## All clients -/

/-- The destruction of `c` has begun and is not finished. -/
def Dying (clients : List Client) (c : ClientRef) : Prop :=
  ∃ k, clients[c]? = some k ∧ k.lifetime ≠ .live ∧ k.lifetime ≠ .destroyed

/-- The registry, the loop or the destructor will see to the end of `c`. -/
def Owned (m : ClientsMap) (l : Loop ι) (d : Destructor) (c : ClientRef) : Prop :=
  Visits c m ∨ (∃ id source, l = .emplacing id c source) ∨ l = .destroying c ∨ d = .destroying c

/-- Whoever else sees to a client goes on doing so when the loop moves without it. -/
theorem Owned.elsewhere {m m' : ClientsMap} {l l' : Loop ι} {d : Destructor} {c : ClientRef}
    (h : Owned m l d c) (hemplacing : ∀ id source, l ≠ .emplacing id c source) (hdestroying : l ≠ .destroying c)
    (hm : Visits c m → Visits c m') : Owned m' l' d c := by
  rcases h with hv | ⟨id, source, hpc⟩ | hpc | hpc
  · exact .inl (hm hv)
  · exact absurd hpc (hemplacing id source)
  · exact absurd hpc hdestroying
  · exact .inr (.inr (.inr hpc))

/-- So does the registry, or the loop, when the destructor moves without it. -/
theorem Owned.undestroyed {m m' : ClientsMap} {l : Loop ι} {d d' : Destructor} {c : ClientRef}
    (h : Owned m l d c) (hd : d ≠ .destroying c) (hm : Visits c m → Visits c m') : Owned m' l d' c := by
  rcases h with hv | hpc | hpc | hpc
  · exact .inl (hm hv)
  · exact .inr (.inl hpc)
  · exact .inr (.inr (.inl hpc))
  · exact absurd hpc hd

structure Housed (s : State ι) : Prop where
  orderly : ∀ (c : ClientRef) k, s.clients[c]? = some k → k.Orderly
  owned : ∀ (c : ClientRef) k, s.clients[c]? = some k →
    k.lifetime = .destroyed ∨ Owned s.clientsMap s.loop s.destructor c
  loopDying : ∀ c, s.loop = .destroying c → Dying s.clients c
  destructorDying : ∀ c, s.destructor = .destroying c → Dying s.clients c
  emptied : s.destructor = .done → s.clientsMap.entries = []

theorem housed_init : Housed (init ι) where
  orderly := by intro c k h; exact absurd h (by simp [init])
  owned := by intro c k h; exact absurd h (by simp [init])
  loopDying := by intro c h; exact absurd h (by simp [init])
  destructorDying := by intro c h; exact absurd h (by simp [init])
  emptied := by intro h; exact absurd h (by simp [init])

/-- An element of a list after one of them is set. -/
theorem getElem?_set_cases {clients : List Client} {c d : ClientRef} {k' m : Client}
    (h : (clients.set c k')[d]? = some m) : (c = d ∧ m = k') ∨ (c ≠ d ∧ clients[d]? = some m) := by
  by_cases hcd : c = d
  · subst hcd
    rw [List.getElem?_set] at h
    simp only [if_true] at h
    split at h
    · exact .inl ⟨rfl, (Option.some.inj h).symm⟩
    · exact absurd h (by simp)
  · rw [List.getElem?_set_ne hcd] at h
    exact .inr ⟨hcd, h⟩

theorem Dying.set {clients : List Client} {c d : ClientRef} {k k' : Client} (h : Dying clients d)
    (hk : clients[c]? = some k) (hl : k'.lifetime = k.lifetime) : Dying (clients.set c k') d := by
  obtain ⟨m, hm, hlive, hdestroyed⟩ := h
  by_cases hcd : c = d
  · subst hcd
    obtain rfl := Option.some.inj (hk.symm.trans hm)
    obtain ⟨hlt, -⟩ := List.getElem?_eq_some_iff.mp hk
    exact ⟨k', List.getElem?_set_self hlt, by rw [hl]; exact hlive, by rw [hl]; exact hdestroyed⟩
  · exact ⟨m, by rw [List.getElem?_set_ne hcd]; exact hm, hlive, hdestroyed⟩

/-- A client that goes on dying. -/
theorem dying_self {clients : List Client} {c : ClientRef} {k k' : Client} (hk : clients[c]? = some k)
    (hlive : k'.lifetime ≠ .live) (hdestroyed : k'.lifetime ≠ .destroyed) : Dying (clients.set c k') c := by
  obtain ⟨hlt, -⟩ := List.getElem?_eq_some_iff.mp hk
  exact ⟨k', List.getElem?_set_self hlt, hlive, hdestroyed⟩

/-- A client changes and stays where it is in its life. -/
theorem Housed.setClient {s : State ι} (hh : Housed s) {c : ClientRef} {k k' : Client}
    (hk : s.clients[c]? = some k) (ho : k'.Orderly) (hl : k'.lifetime = k.lifetime) :
    Housed { s with clients := s.clients.set c k' } where
  orderly := by
    intro d m hm
    rcases getElem?_set_cases hm with ⟨-, rfl⟩ | ⟨-, hm⟩
    · exact ho
    · exact hh.orderly d m hm
  owned := by
    intro d m hm
    rcases getElem?_set_cases hm with ⟨rfl, rfl⟩ | ⟨-, hm⟩
    · rw [hl]
      exact hh.owned c k hk
    · exact hh.owned d m hm
  loopDying := fun d hd => (hh.loopDying d hd).set hk hl
  destructorDying := fun d hd => (hh.destructorDying d hd).set hk hl
  emptied := hh.emptied

/-- The loop goes from one position to another without a client in its hands. -/
theorem Housed.setLoop {s : State ι} (hh : Housed s) {l : Loop ι}
    (hemplacing : ∀ id c source, s.loop ≠ .emplacing id c source) (hdestroying : ∀ c, s.loop ≠ .destroying c)
    (hl : ∀ c, l ≠ .destroying c) : Housed { s with loop := l } where
  orderly := hh.orderly
  owned := by
    intro c k hk
    apply (hh.owned c k hk).imp_right
    intro ho
    exact ho.elsewhere (fun id source => hemplacing id c source) (hdestroying c) id
  loopDying := fun c hc => absurd hc (hl c)
  destructorDying := hh.destructorDying
  emptied := hh.emptied

/-- The loop begins to destroy the client that it has, or that it takes out of the registry. -/
theorem Housed.release {s : State ι} (hs : Sane s) (hh : Housed s) {c : ClientRef} {k : Client} {m : ClientsMap}
    (hk : s.clients[c]? = some k) (hlive : k.lifetime = .live) (hdone : s.loop ≠ .done)
    (hother : ∀ d, d ≠ c → ∀ id source, s.loop ≠ .emplacing id d source)
    (hdestroying : ∀ d, s.loop ≠ .destroying d) (hm : ∀ d, d ≠ c → Visits d s.clientsMap → Visits d m) :
    Housed { s with
      clientsMap := m
      clients := s.clients.set c { k with lifetime := .setTerm }
      loop := .destroying c } where
  orderly := by
    intro d n hn
    rcases getElem?_set_cases hn with ⟨-, rfl⟩ | ⟨-, hn⟩
    · exact (hh.orderly c k hk).release hlive
    · exact hh.orderly d n hn
  owned := by
    intro d n hn
    rcases getElem?_set_cases hn with ⟨rfl, -⟩ | ⟨hne, hn⟩
    · exact .inr (.inr (.inr (.inl rfl)))
    · apply (hh.owned d n hn).imp_right
      intro ho
      exact ho.elsewhere (hother d (Ne.symm hne)) (hdestroying d) (hm d (Ne.symm hne))
  loopDying := by
    intro d hd
    obtain rfl := Loop.destroying.inj hd
    exact dying_self hk (by simp) (by simp)
  -- the destructor has not joined the loop
  destructorDying := fun d hd => absurd (hs.signalingJoined (by rw [hd]; rfl)) hdone
  emptied := fun hd => absurd (hs.signalingJoined (by rw [hd]; rfl)) hdone

/-! ## Each thread -/

theorem Housed.stepOnMessage {s s' : State ι} {a : OnMessageAction ι} (hh : Housed s)
    (h : OnMessageStepped C s a s') : Housed s' := by
  cases h with
  | dropped _ _ => exact hh
  | received _ _ | pushed _ _ => exact { hh with }

theorem Housed.stepCollector {s s' : State ι} {a : CollectorAction} (hh : Housed s)
    (h : CollectorStepped s a s') : Housed s' := by
  cases h with
  | @got _ e _ client _ q _ hk _ =>
      have ho := hh.orderly e.2 client hk
      have hset : Housed { s with clients := s.clients.set e.2 { client with signalingQueueOut := q } } :=
        hh.setClient hk { ho with } rfl
      exact { hset with }
  | checked _ | locked _ _ _ | passed _ _ _ | pushed _ _ | unlocked _ => exact { hh with }

theorem Housed.stepLoop {s s' : State ι} {a : LoopAction} (hs : Sane s) (hh : Housed s)
    (h : LoopStepped C s a s') : Housed s' := by
  cases h with
  | checked hpc =>
      refine hh.setLoop (by rw [hpc]; simp) (by rw [hpc]; simp) ?_
      intro c
      by_cases hterm : s.doTerm = true
      · simp [hterm]
      · simp [hterm]
  | stopped hpc _ | absent hpc _ _ | sent hpc | joined hpc _ =>
      exact hh.setLoop (by rw [hpc]; simp) (by rw [hpc]; simp) (by simp)
  | threw _ _ _ | sendThrew _ => exact { hh with }
  | @popped item q verdict hpc _ _ =>
      have hhq : Housed { s with signalingQueue := q } := { hh with }
      cases verdict with
      | skip | answer _ _ | erase _ | send _ =>
          exact hhq.setLoop (by rw [hpc]; simp) (by rw [hpc]; simp) (by simp)
      | request id =>
          -- the new client is in the hands of the loop
          have hold : ∀ (d : ClientRef) n, (s.clients ++ [Client.new id])[d]? = some n →
              s.clients[d]? = some n ∨ (d = s.clients.length ∧ n = Client.new id) := by
            intro d n hn
            by_cases hlt : d < s.clients.length
            · rw [List.getElem?_append_left hlt] at hn
              exact .inl hn
            · have hle : s.clients.length ≤ d := Nat.le_of_not_lt hlt
              rw [List.getElem?_append_right hle, List.getElem?_singleton] at hn
              split at hn
              · rename_i hzero
                exact .inr ⟨Nat.le_antisymm (Nat.sub_eq_zero_iff_le.mp hzero) hle, (Option.some.inj hn).symm⟩
              · exact absurd hn (by simp)
          constructor
          · intro d n hn
            rcases hold d n hn with hn | ⟨-, rfl⟩
            · exact hh.orderly d n hn
            · exact Client.orderly_new id
          · intro d n hn
            rcases hold d n hn with hn | ⟨rfl, -⟩
            · apply (hh.owned d n hn).imp_right
              intro ho
              exact ho.elsewhere (by rw [hpc]; simp) (by rw [hpc]; simp) (fun hv => hv)
            · exact .inr (.inr (.inl ⟨id, item.source, rfl⟩))
          · intro d hd
            exact absurd hd (by simp [dispatch])
          · intro d hd
            have hloop := hs.signalingJoined (by rw [show s.destructor = .destroying d from hd]; rfl)
            exact absurd (hpc.symm.trans hloop) (by simp)
          · exact hh.emptied
  | @emplaced id c source hpc _ hid =>
      constructor
      · exact hh.orderly
      · intro d n hn
        by_cases hdc : d = c
        · subst hdc
          exact .inr (.inl (visits_iff.mpr ⟨id, AList.lookup_insert _⟩))
        · apply (hh.owned d n hn).imp_right
          intro ho
          refine ho.elsewhere ?_ (by rw [hpc]; simp) (fun hv => hv.insert hid)
          intro id' source' hpc'
          obtain ⟨-, hcd, -⟩ := Loop.emplacing.inj (hpc.symm.trans hpc')
          exact hdc hcd.symm
      · intro d hd
        exact absurd hd (by simp)
      · exact hh.destructorDying
      · intro hd
        have hloop := hs.signalingJoined (by rw [show s.destructor = .done from hd]; rfl)
        exact absurd (hpc.symm.trans hloop) (by simp)
  | @discarded id c source client hpc _ _ hk =>
      obtain ⟨⟨k, hk', -, hlive⟩, -⟩ := hs.emplacing id c source hpc
      obtain rfl := Option.some.inj (hk.symm.trans hk')
      refine hh.release hs hk hlive (by rw [hpc]; simp) ?_ (by rw [hpc]; simp) (fun _ _ hv => hv)
      intro d hd id' source' hpc'
      obtain ⟨-, hcd, -⟩ := Loop.emplacing.inj (hpc.symm.trans hpc')
      exact hd hcd.symm
  | @erased id source c client hpc _ hc hk =>
      obtain ⟨k, hk', -, hlive⟩ := hs.registered id c hc
      obtain rfl := Option.some.inj (hk.symm.trans hk')
      refine hh.release hs hk hlive (by rw [hpc]; simp) (by rw [hpc]; simp) (by rw [hpc]; simp) ?_
      intro d hd hv
      apply hv.erase
      intro hX
      exact hd (Option.some.inj (hX.symm.trans hc))
  | @destroyed c client client' hpc hk hd =>
      have hdone : s.loop ≠ .done := by rw [hpc]; simp
      have hlive := (destroy_cases hd).2.1
      constructor
      · intro d n hn
        rcases getElem?_set_cases hn with ⟨-, rfl⟩ | ⟨-, hn⟩
        · exact (hh.orderly c client hk).destroy hd
        · exact hh.orderly d n hn
      · intro d n hn
        rcases getElem?_set_cases hn with ⟨rfl, rfl⟩ | ⟨hne, hn⟩
        · by_cases hend : n.lifetime = .destroyed
          · exact .inl hend
          · exact .inr (.inr (.inr (.inl (if_neg hend))))
        · apply (hh.owned d n hn).imp_right
          intro ho
          refine ho.elsewhere (by rw [hpc]; simp) ?_ (fun hv => hv)
          intro hpc'
          exact hne (Loop.destroying.inj (hpc.symm.trans hpc'))
      · intro d hd'
        change (if client'.lifetime = .destroyed then Loop.top else .destroying c) = _ at hd'
        split at hd'
        · exact absurd hd' (by simp)
        · rename_i hend
          obtain rfl := Loop.destroying.inj hd'
          exact dying_self hk hlive hend
      · intro d hd'
        exact absurd (hs.signalingJoined (by rw [show s.destructor = .destroying d from hd']; rfl)) hdone
      · exact hh.emptied
  | @answered c sdp source client q hpc hk hq =>
      have ho := hh.orderly c client hk
      have hq' : q.stopped = client.lifetime.inStopped := (BlockingQueue.stopped_of_tryPush hq).trans ho.stopped
      have hsize := (BlockingQueue.maxSize_of_tryPush hq).trans ho.size
      have hset : Housed { s with clients := s.clients.set c { client with signalingQueueIn := q } } :=
        hh.setClient hk { ho with stopped := hq', size := hsize } rfl
      exact hset.setLoop (by rw [hpc]; simp) (by rw [hpc]; simp) (by simp)

theorem Housed.stepDestructor {s s' : State ι} (hs : Sane s) (hh : Housed s) (h : DestructorStepped s s') :
    Housed s' := by
  -- the destructor is not at a client before it moves, nor at its end
  have hmove : ∀ d : Destructor, (∀ c, s.destructor ≠ .destroying c) → (∀ c, d ≠ .destroying c) →
      (d = .done → s.clientsMap.entries = []) → Housed { s with destructor := d } := by
    intro d hold hnew hdone
    refine { hh with owned := ?_, destructorDying := fun c hc => absurd hc (hnew c), emptied := hdone }
    intro c k hk
    apply (hh.owned c k hk).imp_right
    intro ho
    exact ho.undestroyed (hold c) (fun hv => hv)
  cases h with
  | started hpc =>
      exact { hmove .stopSignaling (by rw [hpc]; simp) (by simp) (by simp) with }
  | signalingStopped hpc =>
      exact { hmove .closeWebSocket (by rw [hpc]; simp) (by simp) (by simp) with }
  | webSocketClosed hpc | signalingJoined hpc _ | multimediaJoined hpc _ =>
      exact hmove _ (by rw [hpc]; simp) (by simp) (by simp)
  | framesStopped hpc =>
      exact { hmove .joinMultimedia (by rw [hpc]; simp) (by simp) (by simp) with }
  | finished hpc hempty => exact hmove _ (by rw [hpc]; simp) (by simp) (fun _ => hempty)
  | @released e client hpc he hk =>
      have hloop : s.loop = .done := hs.signalingJoined (by rw [hpc]; rfl)
      have hreg : s.clientsMap.lookup e.1 = some e.2 := AList.mem_lookup_iff.mpr he
      obtain ⟨k, hk', -, hlive⟩ := hs.registered e.1 e.2 hreg
      obtain rfl := Option.some.inj (hk.symm.trans hk')
      constructor
      · intro d n hn
        rcases getElem?_set_cases hn with ⟨-, rfl⟩ | ⟨-, hn⟩
        · exact (hh.orderly e.2 client hk).release hlive
        · exact hh.orderly d n hn
      · intro d n hn
        rcases getElem?_set_cases hn with ⟨rfl, -⟩ | ⟨hne, hn⟩
        · exact .inr (.inr (.inr (.inr rfl)))
        · apply (hh.owned d n hn).imp_right
          intro ho
          refine ho.undestroyed (by rw [hpc]; simp) (fun hv => hv.erase ?_)
          intro hX
          exact hne (Option.some.inj (hreg.symm.trans hX))
      · intro d hd
        exact absurd (hloop.symm.trans hd) (by simp)
      · intro d hd
        obtain rfl := Destructor.destroying.inj hd
        exact dying_self hk (by simp) (by simp)
      · intro hd
        exact absurd hd (by simp)
  | @destroyed c client client' hpc hk hd =>
      have hloop : s.loop = .done := hs.signalingJoined (by rw [hpc]; rfl)
      have hlive := (destroy_cases hd).2.1
      constructor
      · intro d n hn
        rcases getElem?_set_cases hn with ⟨-, rfl⟩ | ⟨-, hn⟩
        · exact (hh.orderly c client hk).destroy hd
        · exact hh.orderly d n hn
      · intro d n hn
        rcases getElem?_set_cases hn with ⟨rfl, rfl⟩ | ⟨hne, hn⟩
        · by_cases hend : n.lifetime = .destroyed
          · exact .inl hend
          · exact .inr (.inr (.inr (.inr (if_neg hend))))
        · apply (hh.owned d n hn).imp_right
          intro ho
          refine ho.undestroyed ?_ (fun hv => hv)
          intro hpc'
          exact hne (Destructor.destroying.inj (hpc.symm.trans hpc'))
      · intro d hd'
        exact absurd (hloop.symm.trans hd') (by simp)
      · intro d hd'
        change (if client'.lifetime = .destroyed then Destructor.releasing else .destroying c) = _ at hd'
        split at hd'
        · exact absurd hd' (by simp)
        · rename_i hend
          obtain rfl := Destructor.destroying.inj hd'
          exact dying_self hk hlive hend
      · intro hd'
        change (if client'.lifetime = .destroyed then Destructor.releasing else .destroying c) = _ at hd'
        split at hd' <;> exact absurd hd' (by simp)

theorem housed_step {s s' : State ι} {a : Action ι} (hs : Sane s) (hh : Housed s) (h : step C s a = some s') :
    Housed s' := by
  cases (step_cases h).2 with
  | onMessage h => exact hh.stepOnMessage h
  | collector h => exact hh.stepCollector h
  | loop h => exact hh.stepLoop hs h
  | multimedia h =>
      obtain ⟨m, q, f, rfl⟩ := stepMultimedia_frame h
      exact { hh with }
  | pushData h =>
      obtain ⟨cs, p, q, rfl⟩ := stepPushData_frame h
      exact { hh with }
  | @client c a k k' f hk hc =>
      obtain ⟨ho, hl⟩ := (hh.orderly c k hk).step hc
      exact { hh.setClient hk ho hl with }
  | destructor h => exact hh.stepDestructor hs h

/-! ## The streamer's own flags -/

/-- The destructor has stopped `_signalingQueue`. -/
def Destructor.signalingStopped : Destructor → Bool
  | .idle | .stopSignaling => false
  | _ => true

/-- The destructor has stopped `_framesQueueIn`. -/
def Destructor.framesStopped : Destructor → Bool
  | .joinMultimedia | .releasing | .destroying _ | .done => true
  | _ => false

/-- What the statements of `~WebRTCStreamer` have left behind. -/
structure Stopping (s : State ι) : Prop where
  term : s.destructor ≠ .idle → s.doTerm = true
  signaling : s.destructor.signalingStopped = true → s.signalingQueue.stopped = true
  frames : s.destructor.framesStopped = true → s.framesQueueIn.stopped = true

theorem stopping_init : Stopping (init ι) where
  term := fun h => absurd rfl h
  signaling := fun h => absurd h (by simp [init, Destructor.signalingStopped])
  frames := fun h => absurd h (by simp [init, Destructor.framesStopped])

/-- The other threads leave the flags alone. -/
theorem Stopping.same {s s' : State ι} (h : Stopping s) (hterm : s'.doTerm = s.doTerm)
    (hdestructor : s'.destructor = s.destructor)
    (hsignaling : s'.signalingQueue.stopped = s.signalingQueue.stopped)
    (hframes : s'.framesQueueIn.stopped = s.framesQueueIn.stopped) : Stopping s' where
  term := by rw [hterm, hdestructor]; exact h.term
  signaling := by rw [hsignaling, hdestructor]; exact h.signaling
  frames := by rw [hframes, hdestructor]; exact h.frames

theorem stopping_step {s s' : State ι} {a : Action ι} (hp : Stopping s) (h : step C s a = some s') :
    Stopping s' := by
  cases (step_cases h).2 with
  | onMessage h =>
      cases h with
      | dropped _ _ | received _ _ => exact hp.same rfl rfl rfl rfl
      | pushed _ hq => exact hp.same rfl rfl (BlockingQueue.stopped_of_tryPush hq) rfl
  | collector h =>
      cases h with
      | pushed _ hq => exact hp.same rfl rfl (BlockingQueue.stopped_of_tryPush hq) rfl
      | checked _ | locked _ _ _ | got _ _ _ | passed _ _ _ | unlocked _ => exact hp.same rfl rfl rfl rfl
  | loop h =>
      cases h with
      | @popped item q verdict _ hq _ =>
          have hstopped := BlockingQueue.stopped_of_tryPop hq
          cases verdict with
          | skip | request _ | answer _ _ | erase _ | send _ => exact hp.same rfl rfl hstopped rfl
      | threw _ hq _ => exact hp.same rfl rfl (BlockingQueue.stopped_of_tryPop hq) rfl
      | checked _ | stopped _ _ | emplaced _ _ _ | discarded _ _ _ _ | absent _ _ _ | erased _ _ _ _
      | destroyed _ _ _ | answered _ _ _ | sent _ | sendThrew _ | joined _ _ => exact hp.same rfl rfl rfl rfl
  | multimedia h =>
      cases stepMultimedia_cases h with
      | popped _ hq => exact hp.same rfl rfl rfl (BlockingQueue.stopped_of_tryPop hq)
      | checked _ | stopped _ _ | locked _ _ _ | entered _ | left _ | threw _ | unlocked _ =>
          exact hp.same rfl rfl rfl rfl
  | pushData h =>
      cases stepPushData_cases h with
      | pushed _ hq => exact hp.same rfl rfl rfl (BlockingQueue.stopped_of_tryPush hq)
      | called | locked _ _ | ignored _ _ | stamped _ _ => exact hp.same rfl rfl rfl rfl
  | client _ _ => exact hp.same rfl rfl rfl rfl
  | destructor h =>
      cases h with
      | started _ =>
          refine ⟨fun _ => rfl, fun hd => absurd hd ?_, fun hd => absurd hd ?_⟩
          · simp [Destructor.signalingStopped]
          · simp [Destructor.framesStopped]
      | signalingStopped hpc =>
          refine ⟨fun _ => hp.term (by rw [hpc]; simp), fun _ => rfl, fun hd => absurd hd ?_⟩
          simp [Destructor.framesStopped]
      | webSocketClosed hpc | signalingJoined hpc _ =>
          refine ⟨fun _ => hp.term (by rw [hpc]; simp), fun _ => hp.signaling (by rw [hpc]; rfl), ?_⟩
          intro hd
          exact absurd hd (by simp [Destructor.framesStopped])
      | framesStopped hpc =>
          exact ⟨fun _ => hp.term (by rw [hpc]; simp), fun _ => hp.signaling (by rw [hpc]; rfl), fun _ => rfl⟩
      | multimediaJoined hpc _ | finished hpc _ | released hpc _ _ | destroyed hpc _ _ =>
          exact ⟨fun _ => hp.term (by rw [hpc]; simp), fun _ => hp.signaling (by rw [hpc]; rfl),
            fun _ => hp.frames (by rw [hpc]; rfl)⟩

theorem exec_stopping {as : List (Action ι)} {s : State ι} (h : exec (step C) (init ι) as = some s) :
    Sane s ∧ Traced C s ∧ Housed s ∧ Stopping s := by
  refine exec_invariant (I := fun s => Sane s ∧ Traced C s ∧ Housed s ∧ Stopping s) ?_ ?_ as s h
  · exact ⟨sane_init, traced_init, housed_init, stopping_init⟩
  · rintro s a s' ⟨hs, ht, hh, hp⟩ hst
    exact ⟨sane_step hs hst, traced_step hs ht hst, housed_step hs hh hst, stopping_step hp hst⟩

/-! ## Who can move -/

/-- A step of the program itself: nothing arrives, no client reports anything, nobody calls `pushData`, and a
    call of the library returns. -/
def Action.Own : Action ι → Prop
  | .onMessage (.receive _ _) | .pushData (.call _) => False
  | .client _ (.stateChange _) | .client _ (.gatheringStateChange _ _ _) | .client _ (.push _) => False
  | .loop (.send threw) | .multimedia (.leave threw) | .client _ (.apply threw) => threw = false
  | _ => True

/-- Somebody can move. -/
def Moves (C : Codec) (s : State ι) : Prop := ∃ a, a.Own ∧ (step C s a).isSome

theorem moves_loop {s : State ι} (hf : s.fault = none) {a : LoopAction}
    (ha : (Action.loop a : Action ι).Own) (h : (stepLoop C s a).isSome) : Moves C s := by
  refine ⟨.loop a, ha, ?_⟩
  rw [step_loop hf]
  exact h

theorem moves_collector {s : State ι} (hf : s.fault = none) {a : CollectorAction}
    (h : (stepCollector s a).isSome) : Moves C s := by
  refine ⟨.collector a, trivial, ?_⟩
  rw [step_collector hf]
  exact h

theorem moves_multimedia {s : State ι} (hf : s.fault = none) {a : MultimediaAction}
    (ha : (Action.multimedia a : Action ι).Own) (h : (stepMultimedia s a).isSome) : Moves C s := by
  refine ⟨.multimedia a, ha, ?_⟩
  rw [step_multimedia hf]
  exact h

theorem moves_destructor {s : State ι} (hf : s.fault = none) (h : (stepDestructor s).isSome) : Moves C s := by
  refine ⟨.destructor, trivial, ?_⟩
  rw [step_destructor hf]
  exact h

/-- The thread of a client with something to take, or whose queue has been stopped. -/
theorem moves_client {s : State ι} (hf : s.fault = none) {c : ClientRef} {k : Client}
    (hk : s.clients[c]? = some k) (hne : k.thread ≠ .done)
    (hready : k.signalingQueueIn.queue ≠ [] ∨ k.signalingQueueIn.stopped = true) : Moves C s := by
  obtain ⟨a, ha, h⟩ := Client.thread_moves (C := C) hne hready
  obtain ⟨⟨k', f⟩, hstep⟩ := Option.isSome_iff_exists.mp h
  refine ⟨.client c a, ?_, ?_⟩
  · rcases ha with rfl | rfl | rfl
    · trivial
    · trivial
    · rfl
  · simp only [step, hf, Option.isSome_none, Bool.false_eq_true, if_false, hk, Option.bind_eq_bind,
      Option.bind_some, hstep, Option.isSome_some]

/-- Who holds the shared lock can move, and so can the collector whenever it may take it. -/
theorem moves_collecting {s : State ι} (hf : s.fault = none) (hs : Sane s)
    (hstopped : s.signalingQueue.stopped = true) (hne : s.collector ≠ .done)
    (hfree : s.loop.exclusiveHeld = false) : Moves C s := by
  cases hpc : s.collector with
  | done => exact absurd hpc hne
  | top => exact moves_collector hf (a := .check) (by simp [stepCollector, hpc])
  | locking =>
      apply moves_collector hf (a := .lock s.clientsMap.entries)
      simp [stepCollector, hpc, hfree]
  | walking rest =>
      cases rest with
      | nil => exact moves_collector hf (a := .unlock) (by simp [stepCollector, hpc])
      | cons e rest =>
          -- the timeout of `signalingGet` expires
          have hreg := hs.collecting (e :: rest) (by rw [hpc]; rfl) e List.mem_cons_self
          obtain ⟨k, hk, -⟩ := hs.registered e.1 e.2 hreg
          obtain ⟨⟨r, q⟩, hq⟩ := Option.isSome_iff_exists.mp
            (BlockingQueue.tryPopFor_of_expired k.signalingQueueOut)
          apply moves_collector hf (a := .get true)
          cases r <;> simp [stepCollector, hpc, hk, hq]
  | holding item rest =>
      obtain ⟨q, hq⟩ := Option.isSome_iff_exists.mp (BlockingQueue.tryPush_of_stopped hstopped item)
      exact moves_collector hf (a := .push) (by simp [stepCollector, hpc, hq])

/-- Likewise the multimedia thread, unless it waits for a frame. -/
theorem moves_traversing {s : State ι} (hf : s.fault = none) (hne : s.multimedia ≠ .done)
    (hfree : s.loop.exclusiveHeld = false)
    (hframe : s.multimedia = .polling → s.framesQueueIn.stopped = true) : Moves C s := by
  cases hpc : s.multimedia with
  | done => exact absurd hpc hne
  | top => exact moves_multimedia hf (a := .check) trivial (by simp [stepMultimedia, hpc])
  | polling =>
      obtain ⟨⟨r, q⟩, hq⟩ := Option.isSome_iff_exists.mp
        (BlockingQueue.tryPop_of_ready (.inr (hframe hpc)))
      apply moves_multimedia hf (a := .pop) trivial
      cases r <;> simp [stepMultimedia, hpc, hq]
  | locking frame =>
      apply moves_multimedia hf (a := .lock s.clientsMap.entries) trivial
      simp [stepMultimedia, hpc, hfree]
  | walking frame rest =>
      cases rest with
      | nil => exact moves_multimedia hf (a := .unlock) trivial (by simp [stepMultimedia, hpc])
      | cons e rest => exact moves_multimedia hf (a := .enter) trivial (by simp [stepMultimedia, hpc])
  | sending frame e rest =>
      exact moves_multimedia hf (a := .leave false) rfl (by simp [stepMultimedia, hpc])

/-- A client that is being destroyed: the next statement of `~Client` can be executed, or the thread that it
    joins can move. -/
theorem dying_moves {s : State ι} (hf : s.fault = none) (hh : Housed s) {c : ClientRef} {k : Client}
    (hk : s.clients[c]? = some k) (hlive : k.lifetime ≠ .live) (hdestroyed : k.lifetime ≠ .destroyed) :
    k.destroy.isSome ∨ Moves C s := by
  have ho := hh.orderly c k hk
  by_cases hjoin : k.lifetime = .join
  · by_cases hdone : k.thread = .done
    · exact .inl (by simp [Client.destroy, hjoin, hdone])
    · have hstopped : k.signalingQueueIn.stopped = true := by rw [ho.stopped, hjoin]; rfl
      exact .inr (moves_client hf hk hdone (.inr hstopped))
  · left
    cases hl : k.lifetime with
    | live => exact absurd hl hlive
    | destroyed => exact absurd hl hdestroyed
    | join => exact absurd hl hjoin
    | setTerm | stopIn | stopOut | close => simp [Client.destroy, hl]

/-- **The loop comes to its end**: while it has not, it or somebody it waits for can move. -/
theorem loop_moves {s : State ι} (hf : s.fault = none) (hs : Sane s) (ht : Traced C s) (hh : Housed s)
    (hstopped : s.signalingQueue.stopped = true) (hne : s.loop ≠ .done) : Moves C s := by
  -- who waits for the exclusive lock waits for somebody who traverses
  have hshared : s.sharedHeld = true → Moves C s := by
    intro hheld
    by_cases hcol : s.collector.rest = none
    · have hmul : s.multimedia.rest ≠ none := by
        intro hmul
        exact absurd (hheld.symm.trans (sharedHeld_eq_false.mpr ⟨hcol, hmul⟩)) (by simp)
      obtain ⟨rest, hrest⟩ := Option.ne_none_iff_exists'.mp hmul
      apply moves_traversing hf
      · intro hdone
        rw [hdone] at hrest
        exact absurd hrest (by simp [Multimedia.rest])
      · exact hs.free_of_traversing hrest
      · intro hpolling
        rw [hpolling] at hrest
        exact absurd hrest (by simp [Multimedia.rest])
    · obtain ⟨rest, hrest⟩ := Option.ne_none_iff_exists'.mp hcol
      apply moves_collecting hf hs hstopped
      · intro hdone
        rw [hdone] at hrest
        exact absurd hrest (by simp [Collector.rest])
      · exact hs.free_of_collecting hrest
  cases hpc : s.loop with
  | done => exact absurd hpc hne
  | top => exact moves_loop hf (a := .check) trivial (by simp [stepLoop, hpc])
  | polling =>
      obtain ⟨⟨r, q⟩, hq⟩ := Option.isSome_iff_exists.mp (BlockingQueue.tryPop_of_ready (.inr hstopped))
      apply moves_loop hf (a := .pop) trivial
      cases r with
      | none => simp [stepLoop, hpc, hq]
      | some item =>
          cases hv : process C s.clientsMap item.text with
          | ok verdict => simp [stepLoop, hpc, hq, hv]
          | error e => simp [stepLoop, hpc, hq, hv]
  | emplacing id c source =>
      by_cases hheld : s.sharedHeld = true
      · exact hshared hheld
      · obtain ⟨⟨k, hk, -⟩, -⟩ := hs.emplacing id c source hpc
        apply moves_loop hf (a := .emplace) trivial
        by_cases hid : id ∈ s.clientsMap
        · simp [stepLoop, hpc, hheld, hid, release, hk]
        · simp [stepLoop, hpc, hheld, hid]
  | erasing id source =>
      by_cases hheld : s.sharedHeld = true
      · exact hshared hheld
      · apply moves_loop hf (a := .erase) trivial
        cases hl : s.clientsMap.lookup id with
        | none => simp [stepLoop, hpc, hheld, hl]
        | some c =>
            obtain ⟨k, hk, -⟩ := hs.registered id c hl
            simp [stepLoop, hpc, hheld, hl, release, hk]
  | destroying c =>
      obtain ⟨k, hk, hlive, hdestroyed⟩ := hh.loopDying c hpc
      rcases dying_moves hf hh hk hlive hdestroyed with hd | hm
      · obtain ⟨k', hk'⟩ := Option.isSome_iff_exists.mp hd
        exact moves_loop hf (a := .destroy) trivial (by simp [stepLoop, hpc, hk, hk'])
      · exact hm
  | answering c sdp source =>
      -- the client is registered; if its queue is full, its thread has something to take
      have hanswer := ht.loop
      rw [hpc] at hanswer
      obtain ⟨id, jsonMsg, -, -, -, hreg⟩ := hanswer
      obtain ⟨k, hk, -, hlive⟩ := hs.registered id c hreg
      cases hq : k.signalingQueueIn.tryPush sdp with
      | some q => exact moves_loop hf (a := .answer) trivial (by simp [stepLoop, hpc, hk, hq])
      | none =>
          have ho := hh.orderly c k hk
          have hfull := BlockingQueue.tryPush_eq_none.mp hq
          have hrunning : k.thread ≠ .done := by
            intro hdone
            have hterm := ho.ended hdone
            rw [ho.term, hlive] at hterm
            exact absurd hterm (by simp [Lifetime.termSet])
          have hqueue : k.signalingQueueIn.queue ≠ [] := by
            intro hempty
            have hroom := hfull.1
            rw [hempty, ho.size] at hroom
            exact absurd hroom (by simp)
          exact moves_client hf hk hrunning (.inl hqueue)
  | sending message source => exact moves_loop hf (a := .send false) rfl (by simp [stepLoop, hpc])
  | joining =>
      by_cases hdone : s.collector = .done
      · exact moves_loop hf (a := .join) trivial (by simp [stepLoop, hpc, hdone])
      · exact moves_collecting hf hs hstopped hdone (by rw [hpc]; rfl)

/-- **The destructor comes to its end**: once it has stopped `_signalingQueue`, it or somebody it waits for can
    move. -/
theorem destructor_moves {s : State ι} (hf : s.fault = none) (hs : Sane s) (ht : Traced C s) (hh : Housed s)
    (hp : Stopping s) (hd : s.destructor.signalingStopped = true) (hne : s.destructor ≠ .done) : Moves C s := by
  have hstopped := hp.signaling hd
  cases hpc : s.destructor with
  | done => exact absurd hpc hne
  | idle | stopSignaling =>
      rw [hpc] at hd
      exact absurd hd (by simp [Destructor.signalingStopped])
  | closeWebSocket | stopFrames => exact moves_destructor hf (by simp [stepDestructor, hpc])
  | joinSignaling =>
      by_cases hdone : s.loop = .done
      · exact moves_destructor hf (by simp [stepDestructor, hpc, hdone])
      · exact loop_moves hf hs ht hh hstopped hdone
  | joinMultimedia =>
      have hloop : s.loop = .done := hs.signalingJoined (by rw [hpc]; rfl)
      by_cases hdone : s.multimedia = .done
      · exact moves_destructor hf (by simp [stepDestructor, hpc, hdone])
      · apply moves_traversing hf hdone
        · rw [hloop]
          rfl
        · intro _
          exact hp.frames (by rw [hpc]; rfl)
  | releasing =>
      cases he : s.clientsMap.entries with
      | nil => exact moves_destructor hf (by simp [stepDestructor, hpc, he])
      | cons e rest =>
          have hreg : s.clientsMap.lookup e.1 = some e.2 :=
            AList.mem_lookup_iff.mpr (by rw [he]; exact List.mem_cons_self)
          obtain ⟨k, hk, -⟩ := hs.registered e.1 e.2 hreg
          exact moves_destructor hf (by simp [stepDestructor, hpc, he, hk])
  | destroying c =>
      obtain ⟨k, hk, hlive, hdestroyed⟩ := hh.destructorDying c hpc
      rcases dying_moves hf hh hk hlive hdestroyed with hdestroy | hm
      · obtain ⟨k', hk'⟩ := Option.isSome_iff_exists.mp hdestroy
        exact moves_destructor hf (by simp [stepDestructor, hpc, hk, hk'])
      · exact hm

/-- Everybody is done. -/
structure Finished (s : State ι) : Prop where
  loop : s.loop = .done
  collector : s.collector = .done
  multimedia : s.multimedia = .done
  clients : ∀ k ∈ s.clients, k.thread = .done
  onMessage : s.onMessage = .idle
  callers : s.callers = []
  publicApi : s.publicApi = none
  destructor : s.destructor = .done

/-- Once the destructor is done, only callbacks and callers that came late are left. -/
theorem finished_or_moves {s : State ι} (hf : s.fault = none) (hs : Sane s) (ht : Traced C s) (hh : Housed s)
    (hp : Stopping s) (hd : s.destructor.signalingStopped = true) : Finished s ∨ Moves C s := by
  by_cases hdone : s.destructor = .done
  · have hsignaling := hp.signaling hd
    have hframes := hp.frames (by rw [hdone]; rfl)
    have hloop : s.loop = .done := hs.signalingJoined (by rw [hdone]; rfl)
    cases hon : s.onMessage with
    | pushing item =>
        obtain ⟨q, hq⟩ := Option.isSome_iff_exists.mp (BlockingQueue.tryPush_of_stopped hsignaling item)
        refine .inr ⟨.onMessage .push, trivial, ?_⟩
        rw [step_onMessage hf]
        simp [stepOnMessage, hon, hq]
    | idle =>
        cases hpublic : s.publicApi with
        | some caller =>
            cases caller with
            | entered buffer =>
                refine .inr ⟨.pushData (.stamp ⟨0, 0, by decide, by decide⟩), trivial, ?_⟩
                cases buffer with
                | none => simp [step, hf, stepPushData, hpublic]
                | some data => cases data <;> simp [step, hf, stepPushData, hpublic]
            | pushing frame =>
                obtain ⟨q, hq⟩ := Option.isSome_iff_exists.mp (BlockingQueue.tryPush_of_stopped hframes frame)
                refine .inr ⟨.pushData .push, trivial, ?_⟩
                simp [step, hf, stepPushData, hpublic, hq]
        | none =>
            cases hcallers : s.callers with
            | cons buffer rest =>
                refine .inr ⟨.pushData (.lock 0), trivial, ?_⟩
                simp [step, hf, stepPushData, hpublic, hcallers]
            | nil =>
                left
                refine ⟨hloop, hs.loopDone hloop, hs.multimediaJoined (by rw [hdone]; rfl), ?_, hon, hcallers,
                  hpublic, hdone⟩
                intro k hk
                obtain ⟨c, hc⟩ := List.mem_iff_getElem?.mp hk
                -- nobody owns a client any more, so all of them have been destroyed
                rcases hh.owned c k hc with hend | hv | ⟨id, source, hpc⟩ | hpc | hpc
                · exact (hh.orderly c k hc).joined hend
                · unfold Visits at hv
                  rw [hh.emptied hdone] at hv
                  exact absurd hv (by simp)
                · exact absurd (hloop.symm.trans hpc) (by simp)
                · exact absurd (hloop.symm.trans hpc) (by simp)
                · exact absurd (hdone.symm.trans hpc) (by simp)
  · exact .inr (destructor_moves hf hs ht hh hp hd hdone)

/-! ## How often a loop goes on -/

/-- The threads with a `while (!_do_term)`. -/
inductive Looper
  | signaling
  | collector
  | multimedia
  | client (c : ClientRef)
deriving DecidableEq

/-- The thread begins an iteration, or finds `_do_term` set. -/
def Action.iterates (w : Looper) : Action ι → Bool
  | .loop .check => w = .signaling
  | .collector .check => w = .collector
  | .multimedia .check => w = .multimedia
  | .client c .check => w = .client c
  | _ => false

def Loop.left : Loop ι → Nat
  | .joining | .done => 0
  | _ => 1

/-- How many answers the loop may still hand to a client. -/
def Loop.answers : Loop ι → Nat
  | .polling | .answering _ _ _ => 1
  | _ => 0

def Collector.left : Collector ι → Nat
  | .done => 0
  | _ => 1

def Multimedia.left : Multimedia → Nat
  | .done => 0
  | _ => 1

/-- One iteration when `_do_term` is set; until then one for each answer that is queued. -/
def Client.left (k : Client) : Nat :=
  if k.thread = .done then 0
  else if k.doTerm then 1
  else 1 + (if k.thread = .polling then 0 else 1) + k.signalingQueueIn.queue.length

/-- A client that is still to be constructed has two. -/
def clientLeft (clients : List Client) (c : ClientRef) : Nat :=
  match clients[c]? with
  | none => 2
  | some k => k.left

/-- How many iterations a thread has left once `_do_term` is set. -/
def State.left (s : State ι) : Looper → Nat
  | .signaling => s.loop.left
  | .collector => s.collector.left
  | .multimedia => s.multimedia.left
  | .client c => clientLeft s.clients c + s.loop.answers

theorem doTerm_step {s s' : State ι} {a : Action ι} (h : step C s a = some s') (hterm : s.doTerm = true) :
    s'.doTerm = true := by
  cases (step_cases h).2 with
  | onMessage h => cases h <;> exact hterm
  | collector h => cases h <;> exact hterm
  | loop h =>
      cases h with
      | @popped item q verdict _ _ _ => cases verdict <;> exact hterm
      | checked _ | stopped _ _ | threw _ _ _ | emplaced _ _ _ | discarded _ _ _ _ | absent _ _ _
      | erased _ _ _ _ | destroyed _ _ _ | answered _ _ _ | sent _ | sendThrew _ | joined _ _ => exact hterm
  | multimedia h =>
      obtain ⟨m, q, f, rfl⟩ := stepMultimedia_frame h
      exact hterm
  | pushData h =>
      obtain ⟨cs, p, q, rfl⟩ := stepPushData_frame h
      exact hterm
  | client _ _ => exact hterm
  | destructor h =>
      cases h with
      | started _ => rfl
      | signalingStopped _ | webSocketClosed _ | signalingJoined _ _ | framesStopped _ | multimediaJoined _ _
      | finished _ _ | released _ _ _ | destroyed _ _ _ => exact hterm

theorem Loop.left_le (l : Loop ι) : l.left ≤ 1 := by
  cases l <;> simp [Loop.left]

/-- A client changes and gets at most `n` iterations more. -/
theorem clientLeft_set_add {clients : List Client} {c d : ClientRef} {k k' : Client} {n : Nat}
    (hk : clients[d]? = some k) (hleft : d = c → k'.left ≤ k.left + n) :
    clientLeft (clients.set d k') c ≤ clientLeft clients c + n := by
  unfold clientLeft
  by_cases hdc : d = c
  · subst hdc
    obtain ⟨hlt, -⟩ := List.getElem?_eq_some_iff.mp hk
    rw [List.getElem?_set_self hlt, hk]
    exact hleft rfl
  · rw [List.getElem?_set_ne hdc]
    exact Nat.le_add_right _ _

theorem clientLeft_set {clients : List Client} {c d : ClientRef} {k k' : Client} (hk : clients[d]? = some k)
    (hleft : d = c → k'.left ≤ k.left) : clientLeft (clients.set d k') c ≤ clientLeft clients c := by
  have hset := clientLeft_set_add (n := 0) hk hleft
  exact hset

theorem clientLeft_append (clients : List Client) (id : Bytes) (c : ClientRef) :
    clientLeft (clients ++ [Client.new id]) c ≤ clientLeft clients c := by
  unfold clientLeft
  by_cases hlt : c < clients.length
  · rw [List.getElem?_append_left hlt]
  · have hle : clients.length ≤ c := Nat.le_of_not_lt hlt
    rw [List.getElem?_append_right hle, List.getElem?_eq_none hle, List.getElem?_singleton]
    by_cases hzero : c - clients.length = 0
    · rw [if_pos hzero]
      simp [Client.left, Client.new, BlockingQueue.new]
    · rw [if_neg hzero]

/-- The statements of `~Client` give no iterations. -/
theorem Client.left_destroy {k k' : Client} (h : k.destroy = some k') : k'.left ≤ k.left := by
  cases destroy_stepped h with
  | termSet _ =>
      unfold Client.left
      by_cases hdone : k.thread = .done
      · simp [hdone]
      · by_cases hterm : k.doTerm = true
        · simp [hdone, hterm]
        · simp [hdone, hterm]
          omega
  | inStopped _ | outStopped _ | closed _ | joined _ _ => exact Nat.le_refl _

/-- An answer gives one. -/
theorem Client.left_answer {k : Client} {sdp : Bytes} {q : BlockingQueue Bytes}
    (h : k.signalingQueueIn.tryPush sdp = some q) : { k with signalingQueueIn := q }.left ≤ k.left + 1 := by
  rcases BlockingQueue.tryPush_cases h with ⟨-, rfl⟩ | ⟨-, -, rfl⟩
  · exact Nat.le_add_right _ _
  · unfold Client.left
    by_cases hdone : k.thread = .done
    · simp [hdone]
    · by_cases hterm : k.doTerm = true
      · simp [hdone, hterm]
      · simp [hdone, hterm]
        omega

/-- **One step of a client**: its checks are paid for by what it takes from its queue. -/
theorem Client.left_step {k k' : Client} {a : ClientAction} {f : Option Fault} (ho : k.Orderly)
    (h : ClientStepped C k a k' f) (c : ClientRef) :
    (if (Action.client c a : Action ι).iterates (.client c) then 1 else 0) + k'.left ≤ k.left := by
  cases h with
  | checked hpc =>
      by_cases hterm : k.doTerm = true
      · simp [Action.iterates, Client.left, hpc, hterm]
      · simp [Action.iterates, Client.left, hpc, hterm]
        omega
  | stopped hpc hq =>
      -- the queue has been stopped, and so the flag has been set before
      obtain ⟨-, hstopped, -⟩ | ⟨x, rest, -, hr, -⟩ := BlockingQueue.tryPop_cases hq
      · have hterm : k.doTerm = true := by
          rw [ho.stopped] at hstopped
          rw [ho.term]
          cases hl : k.lifetime with
          | live | setTerm | stopIn =>
              rw [hl] at hstopped
              exact absurd hstopped (by simp [Lifetime.inStopped])
          | stopOut | close | join | destroyed => rfl
        simp [Action.iterates, Client.left, hpc, hterm]
      · exact absurd hr (by simp)
  | popped hpc hq =>
      obtain ⟨rest, hqueue, rfl⟩ := BlockingQueue.tryPop_some hq
      by_cases hterm : k.doTerm = true
      · simp [Action.iterates, Client.left, hpc, hterm]
      · simp [Action.iterates, Client.left, hpc, hterm, hqueue]
        omega
  | applied hpc =>
      by_cases hterm : k.doTerm = true
      · simp [Action.iterates, Client.left, hpc, hterm]
      · simp [Action.iterates, Client.left, hpc, hterm]
  | threw _ => simp [Action.iterates]
  | stateChanged _ | gatheringStateChanged _ | pushed _ _ _ => simp [Action.iterates, Client.left]

/-- A step that leaves the loops alone. -/
theorem left_same {s s' : State ι} (hloop : s'.loop = s.loop) (hcollector : s'.collector = s.collector)
    (hmultimedia : s'.multimedia = s.multimedia)
    (hclients : ∀ c, clientLeft s'.clients c ≤ clientLeft s.clients c) (w : Looper) : s'.left w ≤ s.left w := by
  cases w with
  | signaling => exact Nat.le_of_eq (congrArg Loop.left hloop)
  | collector => exact Nat.le_of_eq (congrArg Collector.left hcollector)
  | multimedia => exact Nat.le_of_eq (congrArg Multimedia.left hmultimedia)
  | client c =>
      show clientLeft s'.clients c + s'.loop.answers ≤ clientLeft s.clients c + s.loop.answers
      rw [hloop]
      exact Nat.add_le_add_right (hclients c) _

theorem left_stepCollector {s s' : State ι} {a : CollectorAction} (hterm : s.doTerm = true)
    (h : CollectorStepped s a s') (w : Looper) :
    (if (Action.collector a : Action ι).iterates w then 1 else 0) + s'.left w ≤ s.left w := by
  cases w with
  | collector =>
      cases h with
      | checked hpc => simp [Action.iterates, State.left, Collector.left, hpc, hterm]
      | locked hpc _ _ | got hpc _ _ | passed hpc _ _ | pushed hpc _ | unlocked hpc =>
          simp [Action.iterates, State.left, Collector.left, hpc]
  | signaling | multimedia =>
      cases h <;> simp [Action.iterates, State.left]
  | client c =>
      cases h with
      | @got _ e rest client text q _ hk _ =>
          have hset : clientLeft (s.clients.set e.2 { client with signalingQueueOut := q }) c ≤
              clientLeft s.clients c := clientLeft_set hk fun _ => Nat.le_refl _
          simp only [Action.iterates, State.left, Bool.false_eq_true, if_false, Nat.zero_add]
          exact Nat.add_le_add_right hset _
      | checked _ | locked _ _ _ | passed _ _ _ | pushed _ _ | unlocked _ =>
          simp [Action.iterates, State.left]

theorem left_stepMultimedia {s s' : State ι} {a : MultimediaAction} (hterm : s.doTerm = true)
    (h : MultimediaStepped s a s') (w : Looper) :
    (if (Action.multimedia a : Action ι).iterates w then 1 else 0) + s'.left w ≤ s.left w := by
  cases w with
  | multimedia =>
      cases h with
      | checked hpc => simp [Action.iterates, State.left, Multimedia.left, hpc, hterm]
      | stopped hpc _ | popped hpc _ | locked hpc _ _ | entered hpc | left hpc | unlocked hpc =>
          simp [Action.iterates, State.left, Multimedia.left, hpc]
      | threw _ => simp [Action.iterates, State.left]
  | signaling | collector | client _ =>
      cases h <;> simp [Action.iterates, State.left]

theorem left_stepLoop {s s' : State ι} {a : LoopAction} (hterm : s.doTerm = true) (h : LoopStepped C s a s')
    (w : Looper) : (if (Action.loop a : Action ι).iterates w then 1 else 0) + s'.left w ≤ s.left w := by
  cases w with
  | signaling =>
      have hle : ∀ (t : State ι), t.left .signaling ≤ 1 := fun t => Loop.left_le t.loop
      cases h with
      | checked hpc => simp [Action.iterates, State.left, Loop.left, hpc, hterm]
      | joined hpc _ => simp [Action.iterates, State.left, Loop.left, hpc]
      | threw _ _ _ | sendThrew _ => simp [Action.iterates, State.left]
      | stopped hpc _ | popped hpc _ _ | emplaced hpc _ _ | discarded hpc _ _ _ | absent hpc _ _
      | erased hpc _ _ _ | destroyed hpc _ _ | answered hpc _ _ | sent hpc =>
          have hleft : s.left .signaling = 1 := by simp [State.left, Loop.left, hpc]
          rw [hleft]
          simp only [Action.iterates, Bool.false_eq_true, if_false, Nat.zero_add]
          exact hle _
  | collector | multimedia =>
      cases h with
      | @popped item q verdict _ _ _ => cases verdict <;> simp [Action.iterates, State.left, dispatch]
      | checked _ | stopped _ _ | threw _ _ _ | emplaced _ _ _ | discarded _ _ _ _ | absent _ _ _
      | erased _ _ _ _ | destroyed _ _ _ | answered _ _ _ | sent _ | sendThrew _ | joined _ _ =>
          simp [Action.iterates, State.left]
  | client c =>
      simp only [State.left]
      cases h with
      | checked hpc => simp [Action.iterates, Loop.answers, hpc, hterm]
      | stopped hpc _ | emplaced hpc _ _ | absent hpc _ _ | sent hpc | joined hpc _ =>
          simp [Action.iterates, Loop.answers, hpc]
      | threw _ _ _ | sendThrew _ => simp [Action.iterates]
      | @popped item q verdict hpc _ _ =>
          have happend := fun id => clientLeft_append s.clients id c
          cases verdict with
          | request id =>
              -- the iterations of the new client are there already
              simp only [Action.iterates, dispatch, Loop.answers, hpc, Bool.false_eq_true, if_false,
                Nat.zero_add]
              have hnew := happend id
              omega
          | skip | answer _ _ | erase _ | send _ => simp [Action.iterates, dispatch, Loop.answers, hpc]
      | discarded hpc _ _ hk | erased hpc _ _ hk =>
          simp only [Action.iterates, Loop.answers, hpc, Bool.false_eq_true, if_false, Nat.zero_add]
          exact clientLeft_set hk fun _ => Nat.le_refl _
      | @destroyed d client client' hpc hk hd =>
          have hset := clientLeft_set (c := c) hk fun _ => Client.left_destroy hd
          simp only [Action.iterates, Loop.answers, hpc, Bool.false_eq_true, if_false, Nat.zero_add]
          by_cases hend : client'.lifetime = .destroyed
          · simpa [hend] using hset
          · simpa [hend] using hset
      | @answered d sdp source client q hpc hk hq =>
          -- the answer that is pushed is one that the loop had left
          have hset : clientLeft (s.clients.set d { client with signalingQueueIn := q }) c ≤
              clientLeft s.clients c + 1 := clientLeft_set_add hk fun _ => Client.left_answer hq
          simp only [Action.iterates, Loop.answers, hpc, Bool.false_eq_true, if_false, Nat.zero_add]
          exact hset

/-- **One step**: once `_do_term` is set, an iteration that begins is one of those left. -/
theorem left_step {s s' : State ι} {a : Action ι} (hh : Housed s) (hterm : s.doTerm = true)
    (h : step C s a = some s') (w : Looper) : (if a.iterates w then 1 else 0) + s'.left w ≤ s.left w := by
  cases (step_cases h).2 with
  | onMessage h =>
      simp only [Action.iterates, Bool.false_eq_true, if_false, Nat.zero_add]
      cases h <;> exact Nat.le_refl (s.left w)
  | collector h => exact left_stepCollector hterm h w
  | loop h => exact left_stepLoop hterm h w
  | multimedia h => exact left_stepMultimedia hterm (stepMultimedia_cases h) w
  | pushData h =>
      obtain ⟨cs, p, q, rfl⟩ := stepPushData_frame h
      simp only [Action.iterates, Bool.false_eq_true, if_false, Nat.zero_add]
      exact Nat.le_refl (s.left w)
  | @client d a k k' f hk hc =>
      have hone := Client.left_step (ι := ι) (hh.orderly d k hk) hc d
      by_cases hw : w = .client d
      · subst hw
        obtain ⟨hlt, -⟩ := List.getElem?_eq_some_iff.mp hk
        simp only [State.left, clientLeft, List.getElem?_set_self hlt, hk]
        omega
      · have hnone : (Action.client d a : Action ι).iterates w = false := by
          cases a <;> simp [Action.iterates]
          exact hw
        rw [hnone, if_neg (by simp), Nat.zero_add]
        have hset : ∀ c, clientLeft (s.clients.set d k') c ≤ clientLeft s.clients c := by
          intro c
          exact clientLeft_set hk fun _ => Nat.le_trans (Nat.le_add_left _ _) hone
        exact left_same (by rfl) (by rfl) (by rfl) hset w
  | destructor h =>
      simp only [Action.iterates, Bool.false_eq_true, if_false, Nat.zero_add]
      cases h with
      | @released e client _ _ hk =>
          have hset : ∀ c, clientLeft (s.clients.set e.2 { client with lifetime := .setTerm }) c ≤
              clientLeft s.clients c := fun c => clientLeft_set hk fun _ => Nat.le_refl _
          exact left_same (by rfl) (by rfl) (by rfl) hset w
      | @destroyed d client client' _ hk hd =>
          have hset : ∀ c, clientLeft (s.clients.set d client') c ≤ clientLeft s.clients c :=
            fun c => clientLeft_set hk fun _ => Client.left_destroy hd
          exact left_same (by rfl) (by rfl) (by rfl) hset w
      | started _ | signalingStopped _ | webSocketClosed _ | signalingJoined _ _ | framesStopped _
      | multimediaJoined _ _ | finished _ _ => exact Nat.le_refl (s.left w)

theorem Client.left_le (k : Client) : k.left ≤ k.signalingQueueIn.queue.length + 2 := by
  unfold Client.left
  split
  · omega
  · split
    · omega
    · split <;> omega

theorem Loop.answers_le (l : Loop ι) : l.answers ≤ 1 := by
  cases l <;> simp [Loop.answers]

/-! ## Every run -/

/-- **Shutdown.** From every reachable state in which the destructor has stopped `_signalingQueue`: an
    exception has ended the process, or everybody is done, or somebody can move; and however it goes on, the
    loop, the collector and the multimedia thread check `_do_term` at most once more, and a client's thread at
    most three times more often than answers are queued for it. -/
theorem shutdown {as : List (Action ι)} {s : State ι} (h : exec (step C) (init ι) as = some s)
    (hd : s.destructor.signalingStopped = true) :
    (s.fault.isSome ∨ Finished s ∨ Moves C s) ∧
    ∀ bs t, exec (step C) s bs = some t →
      bs.countP (Action.iterates .signaling) ≤ 1 ∧ bs.countP (Action.iterates .collector) ≤ 1 ∧
      bs.countP (Action.iterates .multimedia) ≤ 1 ∧
      (∀ (c : ClientRef) k, s.clients[c]? = some k →
        bs.countP (Action.iterates (.client c)) ≤ k.signalingQueueIn.queue.length + 3) ∧
      ∀ c : ClientRef, s.clients[c]? = none → bs.countP (Action.iterates (.client c)) ≤ 3 := by
  obtain ⟨hs, ht, hh, hp⟩ := exec_stopping h
  have hterm : s.doTerm = true := by
    apply hp.term
    intro hidle
    rw [hidle] at hd
    exact absurd hd (by simp [Destructor.signalingStopped])
  refine ⟨?_, ?_⟩
  · cases hf : s.fault with
    | some f => exact .inl rfl
    | none => exact .inr (finished_or_moves hf hs ht hh hp hd)
  · intro bs t hbs
    have hcount : ∀ w, bs.countP (Action.iterates w) ≤ s.left w := by
      intro w
      have hle := countP_add_le (p := Action.iterates w) (μ := fun s => s.left w)
        (I := fun s => Sane s ∧ Housed s ∧ s.doTerm = true) ?_ ?_ bs s t ⟨hs, hh, hterm⟩ hbs
      · exact Nat.le_trans (Nat.le_add_right _ _) hle
      · rintro u a u' ⟨hsu, hhu, htu⟩ hst
        exact ⟨sane_step hsu hst, housed_step hsu hhu hst, doTerm_step hst htu⟩
      · rintro u a u' ⟨-, hhu, htu⟩ hst
        exact left_step hhu htu hst w
    refine ⟨?_, ?_, ?_, ?_, ?_⟩
    · exact Nat.le_trans (hcount .signaling) (Loop.left_le s.loop)
    · apply Nat.le_trans (hcount .collector)
      show s.collector.left ≤ 1
      cases s.collector <;> simp [Collector.left]
    · apply Nat.le_trans (hcount .multimedia)
      show s.multimedia.left ≤ 1
      cases s.multimedia <;> simp [Multimedia.left]
    · intro c k hk
      apply Nat.le_trans (hcount (.client c))
      have hleft := k.left_le
      have hanswers := s.loop.answers_le
      simp only [State.left, clientLeft, hk]
      omega
    · intro c hk
      apply Nat.le_trans (hcount (.client c))
      have hanswers := s.loop.answers_le
      simp only [State.left, clientLeft, hk]
      omega

/-- A client is registered, the collector is visiting it, a disconnect is on its way, and the destructor has
    stopped the queue. -/
def stoppedMidway : List (Action Unit) :=
  [.onMessage (.receive () (.text (str "\x7b\"id\":\"b\",\"type\":\"request\"\x7d"))), .onMessage .push,
    .loop .check, .loop .pop, .loop .emplace, .loop .check,
    .client 0 (.stateChange .failed), .client 0 (.push 0), .collector .check,
    .collector (.lock [⟨str "b", 0⟩]), .collector (.get false), .destructor, .destructor]

theorem shutdown_midway :
    ∃ s ∈ exec (step JsonText.text) (init Unit) stoppedMidway,
      (Finished s ∨ Moves JsonText.text s) ∧
        ∀ bs t, exec (step JsonText.text) s bs = some t → bs.countP (Action.iterates .signaling) ≤ 1 := by
  have hrun : ∃ s ∈ exec (step JsonText.text) (init Unit) stoppedMidway,
      s.fault = none ∧ s.destructor.signalingStopped = true := by decide +kernel
  obtain ⟨s, hs, hf, hd⟩ := hrun
  obtain ⟨hmoves, hbound⟩ := shutdown hs hd
  refine ⟨s, hs, hmoves.resolve_left (by simp [hf]), ?_⟩
  intro bs t hbs
  exact (hbound bs t hbs).1

end Streamer

end WebrtcStreamer
