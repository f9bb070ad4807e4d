import WebrtcStreamer.Streamer.Inversion

/-!
# `Streamer.Invariant` — what holds in every reachable state

`Sane` collects what the lock of `SafeUMap` and the joins of the two destructors buy: a registered client
is alive and has the id it is registered under, a traversal visits registered clients only, for as long as
it lasts, and nobody traverses while the loop holds the exclusive lock. One lemma for each thread,
`sane_step` for all of them, `exec_sane` for every run.
-/

namespace WebrtcStreamer

namespace Streamer

open Transition

variable {ι : Type} {C : Codec}

/-! ## The registry -/

/-- An entry that is left after an erase. -/
theorem lookup_of_erase {m : ClientsMap} {id X : Bytes} {c : ClientRef}
    (h : (m.erase id).lookup X = some c) : X ≠ id ∧ m.lookup X = some c := by
  by_cases hX : X = id
  · rw [hX, AList.lookup_erase] at h
    exact absurd h (by simp)
  · rw [AList.lookup_erase_ne hX] at h
    exact ⟨hX, h⟩

/-- An entry that is there after an insertion is the new one or was there before. -/
theorem lookup_of_insert {m : ClientsMap} {id X : Bytes} {c d : ClientRef}
    (h : (m.insert id c).lookup X = some d) : (X = id ∧ c = d) ∨ m.lookup X = some d := by
  by_cases hX : X = id
  · rw [hX, AList.lookup_insert] at h
    exact .inl ⟨hX, Option.some.inj h⟩
  · rw [AList.lookup_insert_ne hX] at h
    exact .inr h

/-! ## Live clients -/

/-- `c` is a client with the id `X` whose destruction has not begun. -/
def Live (clients : List Client) (c : ClientRef) (X : Bytes) : Prop :=
  ∃ k, clients[c]? = some k ∧ k.id = X ∧ k.lifetime = .live

theorem Live.id_unique {clients : List Client} {c : ClientRef} {X Y : Bytes} (hX : Live clients c X)
    (hY : Live clients c Y) : X = Y := by
  obtain ⟨k, hk, rfl, -⟩ := hX
  obtain ⟨k', hk', rfl, -⟩ := hY
  rw [Option.some.inj (hk.symm.trans hk')]

theorem Live.set {clients : List Client} {c d : ClientRef} {X : Bytes} {k k' : Client}
    (h : Live clients d X) (hk : clients[c]? = some k) (hid : k'.id = k.id)
    (hl : k'.lifetime = k.lifetime) : Live (clients.set c k') d X := by
  obtain ⟨m, hm, hmid, hml⟩ := h
  by_cases hcd : c = d
  · subst hcd
    obtain rfl := Option.some.inj (hk.symm.trans hm)
    obtain ⟨hlt, -⟩ := List.getElem?_eq_some_iff.mp hk
    exact ⟨k', List.getElem?_set_self hlt, hid.trans hmid, hl.trans hml⟩
  · exact ⟨m, by rw [List.getElem?_set_ne hcd]; exact hm, hmid, hml⟩

theorem Live.set_ne {clients : List Client} {c d : ClientRef} {X : Bytes} (h : Live clients d X)
    (hne : d ≠ c) (k' : Client) : Live (clients.set c k') d X := by
  obtain ⟨m, hm, hmid, hml⟩ := h
  exact ⟨m, by rw [List.getElem?_set_ne (Ne.symm hne)]; exact hm, hmid, hml⟩

theorem Live.append {clients : List Client} {d : ClientRef} {X : Bytes} (h : Live clients d X)
    (more : List Client) : Live (clients ++ more) d X := by
  obtain ⟨m, hm, hmid, hml⟩ := h
  obtain ⟨hlt, -⟩ := List.getElem?_eq_some_iff.mp hm
  exact ⟨m, by rw [List.getElem?_append_left hlt]; exact hm, hmid, hml⟩

theorem live_new (clients : List Client) (id : Bytes) :
    Live (clients ++ [Client.new id]) clients.length id :=
  ⟨Client.new id, by simp, rfl, rfl⟩

theorem not_live_length (clients : List Client) (X : Bytes) : ¬ Live clients clients.length X := by
  rintro ⟨k, hk, -⟩
  rw [List.getElem?_eq_none (le_refl _)] at hk
  exact absurd hk (by simp)

/-- `~Client` works on a client whose destruction has begun, and leaves alone its id and the messages it
    has under way. -/
theorem destroy_cases {k k' : Client} (h : k.destroy = some k') :
    k.lifetime ≠ .live ∧ k'.lifetime ≠ .live ∧ k'.id = k.id ∧ k'.callbacks = k.callbacks ∧
      k'.signalingQueueOut.queue = k.signalingQueueOut.queue := by
  cases destroy_stepped h with
  | termSet hl | inStopped hl | outStopped hl | closed hl | joined hl _ =>
      exact ⟨by rw [hl]; simp, by simp, rfl, rfl, rfl⟩

theorem Live.destroy {clients : List Client} {c d : ClientRef} {X : Bytes} {k k' : Client}
    (h : Live clients d X) (hk : clients[c]? = some k) (hd : k.destroy = some k') :
    Live (clients.set c k') d X := by
  refine h.set_ne ?_ k'
  rintro rfl
  obtain ⟨m, hm, -, hml⟩ := h
  obtain rfl := Option.some.inj (hk.symm.trans hm)
  exact (destroy_cases hd).1 hml

/-! ## The invariant -/

/-- The destructor has joined the signaling thread. -/
def Destructor.signalingJoined : Destructor → Bool
  | .stopFrames | .joinMultimedia | .releasing | .destroying _ | .done => true
  | _ => false

/-- The destructor has joined the multimedia thread. -/
def Destructor.multimediaJoined : Destructor → Bool
  | .releasing | .destroying _ | .done => true
  | _ => false

/-- The entries are all registered. -/
def Registered (m : ClientsMap) (rest : List Entry) : Prop := ∀ e ∈ rest, m.lookup e.1 = some e.2

structure Sane (s : State ι) : Prop where
  registered : ∀ X c, s.clientsMap.lookup X = some c → Live s.clients c X
  collecting : ∀ rest, s.collector.rest = some rest → Registered s.clientsMap rest
  traversing : ∀ rest, s.multimedia.rest = some rest → Registered s.clientsMap rest
  exclusive : s.loop.exclusiveHeld = true → s.sharedHeld = false
  emplacing : ∀ id c source, s.loop = .emplacing id c source →
    Live s.clients c id ∧ ∀ X, s.clientsMap.lookup X ≠ some c
  loopDone : s.loop = .done → s.collector = .done
  signalingJoined : s.destructor.signalingJoined = true → s.loop = .done
  multimediaJoined : s.destructor.multimediaJoined = true → s.multimedia = .done

theorem sane_init : Sane (init ι) where
  registered := by
    intro X c h
    rw [init, AList.lookup_empty] at h
    exact absurd h (by simp)
  collecting := by intro rest h; exact absurd h (by simp [init, Collector.rest])
  traversing := by intro rest h; exact absurd h (by simp [init, Multimedia.rest])
  exclusive := by intro h; exact absurd h (by simp [init, Loop.exclusiveHeld])
  emplacing := by intro id c source h; exact absurd h (by simp [init])
  loopDone := by intro h; exact absurd h (by simp [init])
  signalingJoined := by intro h; exact absurd h (by simp [init, Destructor.signalingJoined])
  multimediaJoined := by intro h; exact absurd h (by simp [init, Destructor.multimediaJoined])

/-- The order of a traversal lists registered entries. -/
theorem registered_of_perm {m : ClientsMap} {order : List Entry} (h : order.Perm m.entries) :
    Registered m order := by
  intro e he
  exact AList.mem_lookup_iff.mpr (h.mem_iff.mp he)

/-- The shared lock is free when nobody traverses. -/
theorem sharedHeld_eq_false {s : State ι} :
    s.sharedHeld = false ↔ s.collector.rest = none ∧ s.multimedia.rest = none := by
  unfold State.sharedHeld
  rw [Bool.or_eq_false_iff, Option.isSome_eq_false_iff, Option.isSome_eq_false_iff, Option.isNone_iff_eq_none,
    Option.isNone_iff_eq_none]

/-- A client that changes without losing its id or its life. -/
theorem Sane.setClient {s : State ι} (hs : Sane s) {c : ClientRef} {k : Client}
    (hk : s.clients[c]? = some k) (k' : Client) (hid : k'.id = k.id) (hl : k'.lifetime = k.lifetime) :
    Sane { s with clients := s.clients.set c k' } where
  registered := fun X d h => (hs.registered X d h).set hk hid hl
  collecting := hs.collecting
  traversing := hs.traversing
  exclusive := hs.exclusive
  emplacing := fun id d source h =>
    ⟨(hs.emplacing id d source h).1.set hk hid hl, (hs.emplacing id d source h).2⟩
  loopDone := hs.loopDone
  signalingJoined := hs.signalingJoined
  multimediaJoined := hs.multimediaJoined

/-- The clients that stay registered when one is unregistered are not the one. -/
theorem Sane.registered_erase {s : State ι} (hs : Sane s) {id : Bytes} {c : ClientRef}
    (hc : s.clientsMap.lookup id = some c) (k' : Client) (X : Bytes) (d : ClientRef)
    (h : (s.clientsMap.erase id).lookup X = some d) : Live (s.clients.set c k') d X := by
  obtain ⟨hX, h⟩ := lookup_of_erase h
  have hlive := hs.registered X d h
  refine hlive.set_ne ?_ k'
  rintro rfl
  exact hX (hlive.id_unique (hs.registered id d hc))

/-! ## Each thread -/

theorem Sane.stepOnMessage {s s' : State ι} {a : OnMessageAction ι} (hs : Sane s)
    (h : OnMessageStepped C s a s') : Sane s' := by
  cases h with
  | dropped _ _ => exact hs
  | received _ _ | pushed _ _ => exact { hs with }

/-- While the collector holds the shared lock, nobody holds the exclusive one. -/
theorem Sane.free_of_collecting {s : State ι} (hs : Sane s) {rest : List Entry}
    (h : s.collector.rest = some rest) : s.loop.exclusiveHeld = false := by
  refine Bool.eq_false_iff.mpr fun he => ?_
  rw [(sharedHeld_eq_false.mp (hs.exclusive he)).1] at h
  exact absurd h (by simp)

/-- Likewise the multimedia thread. -/
theorem Sane.free_of_traversing {s : State ι} (hs : Sane s) {rest : List Entry}
    (h : s.multimedia.rest = some rest) : s.loop.exclusiveHeld = false := by
  refine Bool.eq_false_iff.mpr fun he => ?_
  rw [(sharedHeld_eq_false.mp (hs.exclusive he)).2] at h
  exact absurd h (by simp)

/-- The collector moves; if it holds the shared lock afterwards, it may do so. -/
theorem Sane.setCollector {s : State ι} (hs : Sane s) (hpc : s.collector ≠ .done) {k : Collector ι}
    (hrest : ∀ rest, k.rest = some rest → Registered s.clientsMap rest ∧ s.loop.exclusiveHeld = false) :
    Sane { s with collector := k } :=
  { hs with
    collecting := fun rest h => (hrest rest h).1
    exclusive := by
      intro h
      refine sharedHeld_eq_false.mpr ⟨?_, (sharedHeld_eq_false.mp (hs.exclusive h)).2⟩
      refine Option.eq_none_iff_forall_ne_some.mpr fun rest hk => ?_
      exact absurd ((hrest rest hk).2.symm.trans h) (by simp)
    -- the loop has not joined it as long as it moves
    loopDone := fun h => absurd (hs.loopDone h) hpc }

/-- The multimedia thread moves. -/
theorem Sane.setMultimedia {s : State ι} (hs : Sane s) (hpc : s.multimedia ≠ .done) {m : Multimedia}
    (hrest : ∀ rest, m.rest = some rest → Registered s.clientsMap rest ∧ s.loop.exclusiveHeld = false) :
    Sane { s with multimedia := m } :=
  { hs with
    traversing := fun rest h => (hrest rest h).1
    exclusive := by
      intro h
      refine sharedHeld_eq_false.mpr ⟨(sharedHeld_eq_false.mp (hs.exclusive h)).1, ?_⟩
      refine Option.eq_none_iff_forall_ne_some.mpr fun rest hk => ?_
      exact absurd ((hrest rest hk).2.symm.trans h) (by simp)
    multimediaJoined := fun h => absurd (hs.multimediaJoined h) hpc }

theorem Registered.tail {m : ClientsMap} {e : Entry} {rest : List Entry} (h : Registered m (e :: rest)) :
    Registered m rest := fun e' he' => h e' (List.mem_cons_of_mem _ he')

theorem Sane.stepCollector {s s' : State ι} {a : CollectorAction} (hs : Sane s)
    (h : CollectorStepped s a s') : Sane s' := by
  cases h with
  | checked hpc =>
      refine hs.setCollector (by rw [hpc]; simp) fun rest h => ?_
      split at h <;> exact absurd h (by simp [Collector.rest])
  | locked hpc hfree hperm =>
      refine hs.setCollector (by rw [hpc]; simp) fun rest h => ?_
      obtain rfl := Option.some.inj h
      exact ⟨registered_of_perm hperm, hfree⟩
  | @got _ e rest client text q hpc hk _ =>
      -- the client keeps its id and its life
      have hsc := hs.setClient hk { client with signalingQueueOut := q } rfl rfl
      have hheld : s.collector.rest = some (e :: rest) := by rw [hpc]; rfl
      refine hsc.setCollector (by rw [hpc]; simp) fun rest' h => ?_
      obtain rfl := Option.some.inj h
      exact ⟨(hs.collecting _ hheld).tail, hs.free_of_collecting hheld⟩
  | @passed _ e rest _ _ hpc _ _ =>
      have hheld : s.collector.rest = some (e :: rest) := by rw [hpc]; rfl
      refine hs.setCollector (by rw [hpc]; simp) fun rest' h => ?_
      obtain rfl := Option.some.inj h
      exact ⟨(hs.collecting _ hheld).tail, hs.free_of_collecting hheld⟩
  | @pushed item rest q hpc _ =>
      have hsq : Sane { s with signalingQueue := q } := { hs with }
      have hheld : s.collector.rest = some rest := by rw [hpc]; rfl
      refine hsq.setCollector (by rw [hpc]; simp) fun rest' h => ?_
      obtain rfl := Option.some.inj h
      exact ⟨hs.collecting _ hheld, hs.free_of_collecting hheld⟩
  | unlocked hpc =>
      exact hs.setCollector (by rw [hpc]; simp) fun rest' h => absurd h (by simp [Collector.rest])

theorem Sane.stepMultimedia {s s' : State ι} {a : MultimediaAction} (hs : Sane s)
    (h : MultimediaStepped s a s') : Sane s' := by
  cases h with
  | checked hpc =>
      refine hs.setMultimedia (by rw [hpc]; simp) fun rest h => ?_
      split at h <;> exact absurd h (by simp [Multimedia.rest])
  | stopped hpc | unlocked hpc =>
      exact hs.setMultimedia (by rw [hpc]; simp) fun rest h => absurd h (by simp [Multimedia.rest])
  | @popped frame q hpc _ =>
      have hsq : Sane { s with framesQueueIn := q } := { hs with }
      exact hsq.setMultimedia (by rw [hpc]; simp) fun rest h => absurd h (by simp [Multimedia.rest])
  | locked hpc hfree hperm =>
      refine hs.setMultimedia (by rw [hpc]; simp) fun rest h => ?_
      obtain rfl := Option.some.inj h
      exact ⟨registered_of_perm hperm, hfree⟩
  | @entered frame e rest hpc =>
      -- the client that is being visited is still to be visited
      refine hs.setMultimedia (by rw [hpc]; simp) fun rest' h => ?_
      have hheld : s.multimedia.rest = some rest' := by rw [hpc]; exact h
      exact ⟨hs.traversing _ hheld, hs.free_of_traversing hheld⟩
  | @left frame e rest hpc =>
      have hheld : s.multimedia.rest = some (e :: rest) := by rw [hpc]; rfl
      refine hs.setMultimedia (by rw [hpc]; simp) fun rest' h => ?_
      obtain rfl := Option.some.inj h
      exact ⟨(hs.traversing _ hheld).tail, hs.free_of_traversing hheld⟩
  | threw _ => exact { hs with }

theorem Sane.stepPushData {s s' : State ι} {a : PushDataAction} (hs : Sane s)
    (h : stepPushData s a = some s') : Sane s' := by
  obtain ⟨cs, p, q, rfl⟩ := stepPushData_frame h
  exact { hs with }

/-- The clauses about the loop's position, where it holds and wants no exclusive lock afterwards. -/
theorem Sane.setLoop {s : State ι} (hs : Sane s) {l : Loop ι} (hl : s.loop ≠ .done)
    (hheld : l.exclusiveHeld = false) (hemp : ∀ id c source, l ≠ .emplacing id c source) (hdone : l ≠ .done) :
    Sane { s with loop := l } :=
  { hs with
    exclusive := fun h => absurd (hheld.symm.trans h) (by simp)
    emplacing := fun id c source h => absurd h (hemp id c source)
    loopDone := fun h => absurd h hdone
    signalingJoined := fun h => absurd (hs.signalingJoined h) hl }

/-- The loop changes the registry and the clients while nobody holds the shared lock. -/
theorem Sane.setRegistry {s : State ι} (hs : Sane s) (hl : s.loop ≠ .done) (hshared : s.sharedHeld = false)
    {m : ClientsMap} {clients : List Client} {l : Loop ι}
    (hreg : ∀ X c, m.lookup X = some c → Live clients c X)
    (hemp : ∀ id c source, l ≠ .emplacing id c source) (hdone : l ≠ .done) :
    Sane { s with clientsMap := m, clients := clients, loop := l } :=
  have hfree := sharedHeld_eq_false.mp hshared
  { hs with
    registered := hreg
    collecting := fun rest h => absurd (hfree.1.symm.trans h) (by simp)
    traversing := fun rest h => absurd (hfree.2.symm.trans h) (by simp)
    exclusive := fun _ => hshared
    emplacing := fun id c source h => absurd h (hemp id c source)
    loopDone := fun h => absurd h hdone
    signalingJoined := fun h => absurd (hs.signalingJoined h) hl }

theorem Sane.stepLoop {s s' : State ι} {a : LoopAction} (hs : Sane s) (h : LoopStepped C s a s') :
    Sane s' := by
  -- the loop has not been joined as long as it moves
  have hjoined : s.loop ≠ .done → ∀ l : Loop ι, s.destructor.signalingJoined = true → l = .done :=
    fun hl l hd => absurd (hs.signalingJoined hd) hl
  cases h with
  | checked hpc =>
      refine hs.setLoop (by rw [hpc]; simp) ?_ ?_ ?_ <;> split <;> simp [Loop.exclusiveHeld]
  | stopped hpc | absent hpc _ _ | sent hpc =>
      exact hs.setLoop (by rw [hpc]; simp) rfl (by simp) (by simp)
  | @popped item q verdict hpc hq hv =>
      have hl : s.loop ≠ .done := by rw [hpc]; simp
      have hsq : Sane { s with signalingQueue := q } := { hs with }
      cases verdict with
      | skip | answer _ _ | erase _ | send _ => exact hsq.setLoop hl rfl (by simp) (by simp)
      | request id =>
          -- the new client is nowhere in the registry yet
          exact { hs with
            registered := fun X c h => (hs.registered X c h).append _
            exclusive := fun h => absurd h (by simp [dispatch, Loop.exclusiveHeld])
            emplacing := by
              intro id' c source h
              obtain ⟨rfl, rfl, -⟩ := Loop.emplacing.inj h
              refine ⟨live_new s.clients id, fun X hX => ?_⟩
              exact not_live_length s.clients X (hs.registered X _ hX)
            loopDone := fun h => absurd h (by simp [dispatch])
            signalingJoined := hjoined hl _ }
  | threw _ _ _ | sendThrew _ => exact { hs with }
  | @emplaced id c source hpc hshared hid =>
      obtain ⟨hlive, hun⟩ := hs.emplacing id c source hpc
      refine hs.setRegistry (by rw [hpc]; simp) hshared (fun X d h => ?_) (by simp) (by simp)
      rcases lookup_of_insert h with ⟨rfl, rfl⟩ | h
      · exact hlive
      · exact hs.registered X d h
  | @discarded id c source client hpc hshared _ hk =>
      -- it dies without having been registered
      obtain ⟨hlive, hun⟩ := hs.emplacing id c source hpc
      refine hs.setRegistry (by rw [hpc]; simp) hshared (fun X d h => ?_) (by simp) (by simp)
      refine (hs.registered X d h).set_ne ?_ _
      rintro rfl
      exact hun X h
  | @erased id source c client hpc hshared hc hk =>
      exact hs.setRegistry (by rw [hpc]; simp) hshared (hs.registered_erase hc _) (by simp) (by simp)
  | @destroyed c client client' hpc hk hd =>
      -- the client being destroyed is not live, so it is not registered
      exact { hs with
        registered := fun X d h => (hs.registered X d h).destroy hk hd
        exclusive := fun _ => hs.exclusive (by rw [hpc]; rfl)
        emplacing := by
          intro id' c' source' h
          change (if client'.lifetime = .destroyed then Loop.top else .destroying c) = _ at h
          split at h <;> exact absurd h (by simp)
        loopDone := by
          intro h
          change (if client'.lifetime = .destroyed then Loop.top else .destroying c) = _ at h
          split at h <;> exact absurd h (by simp)
        signalingJoined := hjoined (by rw [hpc]; simp) _ }
  | @answered c sdp source client q hpc hk _ =>
      have hsc := hs.setClient hk { client with signalingQueueIn := q } rfl rfl
      have hl : s.loop ≠ .done := by rw [hpc]; simp
      exact hsc.setLoop hl rfl (by simp) (by simp)
  | joined hpc hdone =>
      exact { hs with
        exclusive := fun h => absurd h (by simp [Loop.exclusiveHeld])
        emplacing := fun id' c' source' h => absurd h (by simp)
        loopDone := fun _ => hdone
        signalingJoined := fun _ => rfl }

theorem Sane.stepClient {s : State ι} (hs : Sane s) {c : ClientRef} {k k' : Client} {a : ClientAction}
    {f : Option Fault} (hk : s.clients[c]? = some k) (h : ClientStepped C k a k' f) :
    Sane { s with clients := s.clients.set c k', fault := f } := by
  have hkept : k'.id = k.id ∧ k'.lifetime = k.lifetime := by
    cases h <;> exact ⟨rfl, rfl⟩
  exact { hs.setClient hk k' hkept.1 hkept.2 with }

theorem Sane.stepDestructor {s s' : State ι} (hs : Sane s) (h : DestructorStepped s s') : Sane s' := by
  cases h with
  | started _ | signalingStopped _ | webSocketClosed _ =>
      exact { hs with
        signalingJoined := fun h => absurd h (by simp [Destructor.signalingJoined])
        multimediaJoined := fun h => absurd h (by simp [Destructor.multimediaJoined]) }
  | signalingJoined _ hdone =>
      exact { hs with
        signalingJoined := fun _ => hdone
        multimediaJoined := fun h => absurd h (by simp [Destructor.multimediaJoined]) }
  | framesStopped hpc =>
      exact { hs with
        signalingJoined := fun _ => hs.signalingJoined (by rw [hpc]; rfl)
        multimediaJoined := fun h => absurd h (by simp [Destructor.multimediaJoined]) }
  | multimediaJoined hpc hdone =>
      exact { hs with
        signalingJoined := fun _ => hs.signalingJoined (by rw [hpc]; rfl)
        multimediaJoined := fun _ => hdone }
  | finished hpc =>
      exact { hs with
        signalingJoined := fun _ => hs.signalingJoined (by rw [hpc]; rfl)
        multimediaJoined := fun _ => hs.multimediaJoined (by rw [hpc]; rfl) }
  | @released e client hpc he hk =>
      -- nobody else is left: the loop, and so the collector, and the multimedia thread have been joined
      have hloop : s.loop = .done := hs.signalingJoined (by rw [hpc]; rfl)
      have hcol : s.collector = .done := hs.loopDone hloop
      have hmul : s.multimedia = .done := hs.multimediaJoined (by rw [hpc]; rfl)
      exact { hs with
        registered := hs.registered_erase (AList.mem_lookup_iff.mpr he) _
        collecting := fun rest h => absurd h (by simp [hcol, Collector.rest])
        traversing := fun rest h => absurd h (by simp [hmul, Multimedia.rest])
        emplacing := fun id c source h => absurd (hloop.symm.trans h) (by simp)
        signalingJoined := fun _ => hloop
        multimediaJoined := fun _ => hmul }
  | @destroyed c client client' hpc hk hd =>
      exact { hs with
        registered := fun X d h => (hs.registered X d h).destroy hk hd
        emplacing := fun id c source h =>
          ⟨(hs.emplacing id c source h).1.destroy hk hd, (hs.emplacing id c source h).2⟩
        signalingJoined := fun _ => hs.signalingJoined (by rw [hpc]; rfl)
        multimediaJoined := fun _ => hs.multimediaJoined (by rw [hpc]; rfl) }

/-! ## Every run -/

theorem sane_step {s s' : State ι} {a : Action ι} (hs : Sane s) (h : step C s a = some s') : Sane s' := by
  cases (step_cases h).2 with
  | onMessage h => exact hs.stepOnMessage h
  | collector h => exact hs.stepCollector h
  | loop h => exact hs.stepLoop h
  | multimedia h => exact hs.stepMultimedia (stepMultimedia_cases h)
  | pushData h => exact hs.stepPushData h
  | client hk hc => exact hs.stepClient hk hc
  | destructor h => exact hs.stepDestructor h

theorem exec_sane {as : List (Action ι)} {s : State ι} (h : exec (step C) (init ι) as = some s) : Sane s :=
  exec_invariant sane_init (fun _ _ _ hs hst => sane_step hs hst) as s h

end Streamer

end WebrtcStreamer
