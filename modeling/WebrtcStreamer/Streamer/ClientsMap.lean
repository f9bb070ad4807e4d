import WebrtcStreamer.Lib.JsonText
import WebrtcStreamer.Streamer.Invariant
import WebrtcStreamer.Utils.SafeUMapCorrect

/-!
# `Streamer.ClientsMap` — the streamer's registry is a `SafeUMap`

`Streamer.Step` takes each operation on `_clientsMap` in one step, reads the lock off the positions of the
threads and destroys a client as soon as it is erased. Here the three threads are threads of
`SafeUMap.program` instead: until the map itself goes, every run of the streamer is one of theirs
(`registry_refines`), so that the clients that the streamer has destroyed are those to which there is no pointer
left.
-/

namespace WebrtcStreamer

namespace Streamer

open Transition SharedMutex SafeUMap

variable {ι : Type} {C : Codec}

/-! ## Positions -/

/-- An entry of the registry, with its pointer. -/
def pointerTo (e : Entry) : SafeUMap.Entry Bytes := ⟨e.1, some e.2⟩

/-- The client that the loop has got. -/
def Loop.got : Loop ι → SharedPtr
  | .answering c _ _ => some c
  | _ => none

/-- Where the loop is in a call of the map. -/
inductive LoopAt : Loop ι → Phase (Op Bytes) (Loc Bytes) → Prop
  | emplacing (id : Bytes) (c : ClientRef) (source : Source ι) :
      LoopAt (.emplacing id c source) (.entering (.emplace id (some c)))
  | erasing (id : Bytes) (source : Source ι) : LoopAt (.erasing id source) (.entering (.erase id))
  | destroying (op : Op Bytes) (c : ClientRef) (result : Bool) : op.exclusive = true →
      LoopAt (.destroying c) (.inside op (.dropping (some c) result))
  | idle (l : Loop ι) : l.exclusiveHeld = false → l.wantsExclusive = false → LoopAt l .idle

/-- Where a thread is in a traversal. -/
inductive Stage
  | out
  | walking (rest : List Entry)
  | calling (rest : List Entry)

def Collector.stage : Collector ι → Stage
  | .walking rest => .walking rest
  | .holding _ rest => .calling rest
  | _ => .out

def Multimedia.stage : Multimedia → Stage
  | .walking _ rest => .walking rest
  | .sending _ _ rest => .calling rest
  | _ => .out

inductive WalksAt : Stage → Phase (Op Bytes) (Loc Bytes) → Prop
  | out : WalksAt .out .idle
  | walking (visited : List (SafeUMap.Entry Bytes)) (rest : List Entry) :
      WalksAt (.walking rest) (.inside .traverse (.walking visited (rest.map pointerTo)))
  | calling (visited : List (SafeUMap.Entry Bytes)) (entry : SafeUMap.Entry Bytes) (rest : List Entry) :
      WalksAt (.calling rest) (.inside .traverse (.calling visited entry (rest.map pointerTo)))

/-- **The relation.** Thread 0 is the loop, thread 1 the collector, thread 2 the multimedia thread. -/
structure Registry (s : State ι) (m : Threads Bytes) : Prop where
  map : ∀ id, m.shared.map.lookup id = (s.clientsMap.lookup id).map some
  made : m.shared.useCounts.length = s.clients.length
  destroyed : ∀ c : ℕ, c ∈ m.shared.destroyed ↔ (s.clients.map Client.lifetime)[c]? = some .destroyed
  held : m.shared.held = s.loop.got.toList
  got : ∀ c, s.loop.got = some c → ∃ id, s.clientsMap.lookup id = some c
  size : m.threads.length = 3
  loop : ∃ p, m.threads[0]? = some p ∧ LoopAt s.loop p
  collector : ∃ p, m.threads[1]? = some p ∧ WalksAt s.collector.stage p
  multimedia : ∃ p, m.threads[2]? = some p ∧ WalksAt s.multimedia.stage p

variable {s s' : State ι} {m m' : Threads Bytes}

theorem registry_init : Registry (init ι) (SafeUMap.start Bytes 3) where
  map _ := rfl
  made := rfl
  destroyed c := by simp [init, SafeUMap.start, SharedMutex.init, SafeUMap.new]
  held := rfl
  got c h := absurd h (by simp [init, Loop.got])
  size := rfl
  loop := ⟨_, rfl, .idle _ rfl rfl⟩
  collector := ⟨_, rfl, .out⟩
  multimedia := ⟨_, rfl, .out⟩

/-- What the streamer does elsewhere is nothing to the map. -/
theorem Registry.congr (h : Registry s m) (hmap : s'.clientsMap = s.clientsMap)
    (hlifetimes : s'.clients.map Client.lifetime = s.clients.map Client.lifetime) (hloop : s'.loop = s.loop)
    (hcollector : s'.collector.stage = s.collector.stage)
    (hmultimedia : s'.multimedia.stage = s.multimedia.stage) : Registry s' m where
  map := by rw [hmap]; exact h.map
  made := by
    have hlength := congrArg List.length hlifetimes
    rw [List.length_map, List.length_map] at hlength
    rw [hlength]
    exact h.made
  destroyed := by rw [hlifetimes]; exact h.destroyed
  held := by rw [hloop]; exact h.held
  got := by rw [hloop, hmap]; exact h.got
  size := h.size
  loop := by rw [hloop]; exact h.loop
  collector := by rw [hcollector]; exact h.collector
  multimedia := by rw [hmultimedia]; exact h.multimedia

/-! ## Traversals -/

/-- What a traversal does to the map and its objects. -/
structure Same (a b : SafeUMap Bytes) : Prop where
  map : b.map = a.map
  made : b.useCounts.length = a.useCounts.length
  destroyed : b.destroyed = a.destroyed
  held : b.held = a.held

theorem Same.refl (a : SafeUMap Bytes) : Same a a := ⟨rfl, rfl, rfl, rfl⟩

theorem same_retain (a : SafeUMap Bytes) (value : SharedPtr) : Same a (a.retain value) := by
  cases value with
  | none => exact .refl a
  | some ref => exact ⟨rfl, List.length_set, rfl, rfl⟩

theorem same_release {a : SafeUMap Bytes} {value : SharedPtr}
    (h : ∀ ref, value = some ref → 2 ≤ a.useCount ref) : Same a (a.release value) := by
  cases value with
  | none => exact .refl a
  | some ref => exact ⟨rfl, List.length_set, destroyed_release h, rfl⟩

/-- A thread moves on in a traversal, into the function or out of it or to the end. -/
structure Walked (m m' : Threads Bytes) (t : ℕ) (stage : Stage) : Prop where
  reached : ∃ as, exec (SharedMutex.step (program Bytes)) m as = some m'
  same : Same m.shared m'.shared
  threads : ∃ q, m'.threads = m.threads.set t q ∧ WalksAt stage q

theorem walked_enter {t : ℕ} {p : Phase (Op Bytes) (Loc Bytes)} {e : Entry} {rest : List Entry}
    (ht : m.threads[t]? = some p) (hp : WalksAt (.walking (e :: rest)) p) :
    ∃ m', Walked m m' t (.calling rest) := by
  cases hp with
  | walking visited =>
      have hst : SharedMutex.step (program Bytes) m (.next t .none) =
          some { m with
            shared := m.shared.retain (pointerTo e).2
            threads := m.threads.set t
              (.inside .traverse (.calling visited (pointerTo e) (rest.map pointerTo))) } := by
        simp only [SharedMutex.step, ht]
        rfl
      exact ⟨_, ⟨_, exec_one hst⟩, same_retain m.shared (pointerTo e).2, _, rfl,
        .calling visited (pointerTo e) rest⟩

theorem walked_leave (hm : Sound m) {t : ℕ} {p : Phase (Op Bytes) (Loc Bytes)} {rest : List Entry}
    (ht : m.threads[t]? = some p) (hp : WalksAt (.calling rest) p) : ∃ m', Walked m m' t (.walking rest) := by
  cases hp with
  | calling visited entry =>
      have hst : SharedMutex.step (program Bytes) m (.next t .none) =
          some { m with
            shared := m.shared.release entry.2
            threads := m.threads.set t (.inside .traverse (.walking (visited ++ [entry]) (rest.map pointerTo))) } := by
        simp only [SharedMutex.step, ht]
        rfl
      exact ⟨_, ⟨_, exec_one hst⟩,
        same_release fun ref heq => hm.two_le_useCount ht heq, _, rfl, .walking (visited ++ [entry]) rest⟩

theorem walked_end {t : ℕ} {p : Phase (Op Bytes) (Loc Bytes)} (ht : m.threads[t]? = some p)
    (hp : WalksAt (.walking []) p) : ∃ m', Walked m m' t .out := by
  cases hp with
  | walking visited =>
      have hst : SharedMutex.step (program Bytes) m (.next t .none) =
          some
            { shared := m.shared
              mutex := m.mutex.release false
              threads := m.threads.set t .idle
              log := m.log ++ [(.traverse, .visited visited)] } := by
        simp only [SharedMutex.step, ht]
        rfl
      exact ⟨_, ⟨_, exec_one hst⟩, .refl _, _, rfl, .out⟩

/-- The entries of the registry are those of the map. -/
theorem Registry.perm (h : Registry s m) {order : List Entry} (hperm : order.Perm s.clientsMap.entries) :
    (order.map pointerTo).Perm m.shared.map.entries := by
  refine (hperm.map pointerTo).trans ((List.perm_ext_iff_of_nodup ?_ m.shared.map.nodupKeys.nodup).mpr ?_)
  · refine s.clientsMap.nodupKeys.nodup.map fun a b heq => ?_
    cases a
    cases b
    cases heq
    rfl
  · rintro ⟨id, value⟩
    have hmap := h.map id
    rw [← AList.mem_lookup_iff, Option.mem_def, hmap, List.mem_map, Option.map_eq_some_iff]
    constructor
    · rintro ⟨⟨id', c⟩, hmem, heq⟩
      cases heq
      exact ⟨c, AList.mem_lookup_iff.mpr hmem, rfl⟩
    · rintro ⟨c, hlookup, rfl⟩
      exact ⟨⟨id, c⟩, AList.mem_lookup_iff.mp hlookup, rfl⟩

theorem threads_eq (h : m.threads.length = 3) {p q r : Phase (Op Bytes) (Loc Bytes)}
    (hp : m.threads[0]? = some p) (hq : m.threads[1]? = some q) (hr : m.threads[2]? = some r) :
    m.threads = [p, q, r] := by
  match hthreads : m.threads, h with
  | [a, b, c], _ =>
      rw [hthreads] at hp hq hr
      cases hp
      cases hq
      cases hr
      rfl

/-- The lock is free of a writer unless the loop destroys a client. -/
theorem Registry.not_writer (h : Registry s m) (hm : Sound m) (hfree : s.loop.exclusiveHeld = false) :
    m.mutex.writer = false := by
  obtain ⟨p, hp, hloop⟩ := h.loop
  obtain ⟨q, hq, hcollector⟩ := h.collector
  obtain ⟨r, hr, hmultimedia⟩ := h.multimedia
  have hwriter := hm.locked.writer
  rw [threads_eq h.size hp hq hr] at hwriter
  -- The loop is the only writer, and it holds the lock only while it destroys a client.
  have hpw : p.holds (program Bytes) true = false := by
    generalize s.loop = l at hloop hfree
    cases hloop with
    | destroying => exact absurd hfree (by simp [Loop.exclusiveHeld])
    | emplacing | erasing | idle => rfl
  have hreader : ∀ {stage q}, WalksAt stage q → q.holds (program Bytes) true = false := by
    rintro stage q (_ | _ | _) <;> rfl
  simp only [List.countP_cons, hpw, hreader hcollector, hreader hmultimedia, List.countP_nil] at hwriter
  cases hw : m.mutex.writer with
  | false => rfl
  | true => simp [hw] at hwriter

theorem Registry.walked_lock (h : Registry s m) (hm : Sound m) (hfree : s.loop.exclusiveHeld = false)
    {t : ℕ} {p : Phase (Op Bytes) (Loc Bytes)} (ht : m.threads[t]? = some p) (hp : WalksAt .out p)
    {order : List Entry} (hperm : order.Perm s.clientsMap.entries) :
    ∃ m', Walked m m' t (.walking order) := by
  cases hp
  have hlt := (List.getElem?_eq_some_iff.mp ht).1
  -- What is one step of the streamer are two here: the call, and the lock with the order of the entries.
  have hcall : SharedMutex.step (program Bytes) m (.call t .traverse) =
      some { m with threads := m.threads.set t (.entering .traverse) } := by
    simp only [SharedMutex.step, ht]
    rfl
  have hacquire : SharedMutex.step (program Bytes) { m with threads := m.threads.set t (.entering .traverse) }
      (.acquire t (.order (order.map pointerTo))) =
        some { m with
          mutex := { m.mutex with readers := m.mutex.readers + 1 }
          threads := m.threads.set t (.inside .traverse (.walking [] (order.map pointerTo))) } := by
    have hmutex : m.mutex.acquire false = some { m.mutex with readers := m.mutex.readers + 1 } :=
      if_pos (h.not_writer hm hfree)
    have hstart : Op.start .traverse (.order (order.map pointerTo)) m.shared =
        some (.walking [] (order.map pointerTo)) := if_pos (h.perm hperm)
    have hexclusive : (program Bytes).exclusive .traverse = false := rfl
    have hentering : (m.threads.set t (.entering .traverse))[t]? = some (.entering (.traverse : Op Bytes)) :=
      List.getElem?_set_self hlt
    simp only [SharedMutex.step, hentering, hexclusive, hmutex, List.set_set]
    simp only [program, hstart, Option.bind_eq_bind, Option.bind_some]
  exact ⟨_, ⟨_, exec_two hcall hacquire⟩, .refl m.shared, _, rfl, .walking [] order⟩

/-- A thread has moved on in a traversal, and the others are where they were. -/
theorem Registry.walked (h : Registry s m) {t : ℕ} {stage : Stage} (hw : Walked m m' t stage)
    (hmap : s'.clientsMap = s.clientsMap)
    (hlifetimes : s'.clients.map Client.lifetime = s.clients.map Client.lifetime) (hloop : s'.loop = s.loop)
    (hcollector : (t = 1 ∧ s'.collector.stage = stage ∧ s'.multimedia.stage = s.multimedia.stage) ∨
      t = 2 ∧ s'.multimedia.stage = stage ∧ s'.collector.stage = s.collector.stage) : Registry s' m' := by
  obtain ⟨q, hthreads, hq⟩ := hw.threads
  have hsize := h.size
  have hlength : s'.clients.length = s.clients.length := by
    simpa using congrArg List.length hlifetimes
  constructor
  case map => rw [hw.same.map, hmap]; exact h.map
  case made => rw [hw.same.made, hlength]; exact h.made
  case destroyed => rw [hw.same.destroyed, hlifetimes]; exact h.destroyed
  case held => rw [hw.same.held, hloop]; exact h.held
  case got => rw [hloop, hmap]; exact h.got
  case size => rw [hthreads, List.length_set]; exact hsize
  case loop =>
    obtain ⟨p, hp, hat⟩ := h.loop
    refine ⟨p, ?_, hloop ▸ hat⟩
    rcases hcollector with ⟨rfl, -⟩ | ⟨rfl, -⟩ <;> rwa [hthreads, List.getElem?_set_ne (by decide)]
  case collector =>
    rcases hcollector with ⟨rfl, hstage, -⟩ | ⟨rfl, -, hstage⟩
    · exact ⟨q, by rw [hthreads]; exact List.getElem?_set_self (by omega), hstage ▸ hq⟩
    · obtain ⟨p, hp, hat⟩ := h.collector
      exact ⟨p, by rwa [hthreads, List.getElem?_set_ne (by decide)], hstage ▸ hat⟩
  case multimedia =>
    rcases hcollector with ⟨rfl, -, hstage⟩ | ⟨rfl, hstage, -⟩
    · obtain ⟨p, hp, hat⟩ := h.multimedia
      exact ⟨p, by rwa [hthreads, List.getElem?_set_ne (by decide)], hstage ▸ hat⟩
    · exact ⟨q, by rw [hthreads]; exact List.getElem?_set_self (by omega), hstage ▸ hq⟩

/-- What a step of the streamer is in the map: any number of steps, to where the relation holds again. -/
def Refined (s' : State ι) (m : Threads Bytes) : Prop :=
  ∃ as m', exec (SharedMutex.step (program Bytes)) m as = some m' ∧ Registry s' m'

/-- Nothing happens in the map. -/
theorem Registry.refined (h : Registry s' m) : Refined s' m := ⟨[], m, rfl, h⟩

theorem Walked.refined {t : ℕ} {stage : Stage} (hw : Walked m m' t stage) (h : Registry s' m') :
    Refined s' m := by
  obtain ⟨as, has⟩ := hw.reached
  exact ⟨as, m', has, h⟩

theorem Walked.trans {m'' : Threads Bytes} {t : ℕ} {stage stage' : Stage} (h : Walked m m' t stage)
    (h' : Walked m' m'' t stage') : Walked m m'' t stage' := by
  obtain ⟨⟨as, has⟩, hsame, q, hthreads, -⟩ := h
  obtain ⟨⟨bs, hbs⟩, hsame', q', hthreads', hq'⟩ := h'
  refine ⟨⟨as ++ bs, exec_append_some.mpr ⟨m', has, hbs⟩⟩, ?_, q', ?_, hq'⟩
  · exact ⟨hsame'.map.trans hsame.map, hsame'.made.trans hsame.made, hsame'.destroyed.trans hsame.destroyed,
      hsame'.held.trans hsame.held⟩
  · rw [hthreads', hthreads, List.set_set]

theorem sound_of_exec (hm : Sound m) {as : List (SharedMutex.Action (Op Bytes) (Choice Bytes) Outside)}
    (h : exec (SharedMutex.step (program Bytes)) m as = some m') : Sound m' :=
  exec_invariant hm (fun _ _ _ hi hst => hi.step (stepped_of_step hst)) as m' h

/-- Into the function and out of it. -/
theorem walked_visit (hm : Sound m) {t : ℕ} {p : Phase (Op Bytes) (Loc Bytes)} {e : Entry} {rest : List Entry}
    (ht : m.threads[t]? = some p) (hp : WalksAt (.walking (e :: rest)) p) :
    ∃ m', Walked m m' t (.walking rest) := by
  -- The function returns without another step of the streamer: the collector does not wait in it.
  obtain ⟨m₁, hw⟩ := walked_enter ht hp
  obtain ⟨as, has⟩ := hw.reached
  obtain ⟨q, hthreads, hq⟩ := hw.threads
  have ht₁ : m₁.threads[t]? = some q := by
    rw [hthreads]
    exact List.getElem?_set_self (List.getElem?_eq_some_iff.mp ht).1
  obtain ⟨m₂, hw'⟩ := walked_leave (sound_of_exec hm has) ht₁ hq
  exact ⟨m₂, hw.trans hw'⟩

theorem set_getElem?_self {α : Type} {l : List α} {i : ℕ} {a : α} (h : l[i]? = some a) : l.set i a = l := by
  obtain ⟨hlt, rfl⟩ := List.getElem?_eq_some_iff.mp h
  exact List.set_getElem_self hlt

theorem lifetimes_set {clients : List Client} {c : ClientRef} {k k' : Client} (hk : clients[c]? = some k)
    (hlifetime : k'.lifetime = k.lifetime) :
    (clients.set c k').map Client.lifetime = clients.map Client.lifetime := by
  rw [List.map_set, hlifetime]
  exact set_getElem?_self (by rw [List.getElem?_map, hk]; rfl)

/-- **A step of the collector.** -/
theorem Registry.stepCollector {a : CollectorAction} (h : Registry s m) (hm : Sound m)
    (hst : CollectorStepped s a s') : Refined s' m := by
  obtain ⟨p, hp, hat⟩ := h.collector
  cases hst with
  | checked hpc =>
      refine Registry.refined (h.congr rfl rfl rfl ?_ rfl)
      rw [hpc]
      show Collector.stage (if s.doTerm then .done else .locking) = .out
      split <;> rfl
  | @locked order hpc hfree hperm =>
      rw [hpc] at hat
      obtain ⟨m', hw⟩ := h.walked_lock hm hfree hp hat hperm
      exact hw.refined (h.walked hw rfl rfl rfl (.inl ⟨rfl, rfl, rfl⟩))
  | @got expired e rest client text q hpc hclient hq =>
      rw [hpc] at hat
      obtain ⟨m', hw⟩ := walked_enter hp hat
      exact hw.refined (h.walked hw rfl (lifetimes_set hclient rfl) rfl (.inl ⟨rfl, rfl, rfl⟩))
  | @passed expired e rest client q hpc hclient hq =>
      rw [hpc] at hat
      obtain ⟨m', hw⟩ := walked_visit hm hp hat
      exact hw.refined (h.walked hw rfl rfl rfl (.inl ⟨rfl, rfl, rfl⟩))
  | @pushed item rest q hpc hq =>
      rw [hpc] at hat
      obtain ⟨m', hw⟩ := walked_leave hm hp hat
      exact hw.refined (h.walked hw rfl rfl rfl (.inl ⟨rfl, rfl, rfl⟩))
  | unlocked hpc =>
      rw [hpc] at hat
      obtain ⟨m', hw⟩ := walked_end hp hat
      exact hw.refined (h.walked hw rfl rfl rfl (.inl ⟨rfl, rfl, rfl⟩))

/-- **A step of the multimedia thread.** -/
theorem Registry.stepMultimedia {a : MultimediaAction} (h : Registry s m) (hm : Sound m)
    (hst : MultimediaStepped s a s') : Refined s' m := by
  obtain ⟨p, hp, hat⟩ := h.multimedia
  cases hst with
  | checked hpc =>
      refine Registry.refined (h.congr rfl rfl rfl rfl ?_)
      rw [hpc]
      show Multimedia.stage (if s.doTerm then .done else .polling) = .out
      split <;> rfl
  | stopped hpc => exact Registry.refined (h.congr rfl rfl rfl rfl (by rw [hpc]; rfl))
  | popped hpc hq => exact Registry.refined (h.congr rfl rfl rfl rfl (by rw [hpc]; rfl))
  | @locked frame order hpc hfree hperm =>
      rw [hpc] at hat
      obtain ⟨m', hw⟩ := h.walked_lock hm hfree hp hat hperm
      exact hw.refined (h.walked hw rfl rfl rfl (.inr ⟨rfl, rfl, rfl⟩))
  | @entered frame e rest hpc =>
      rw [hpc] at hat
      obtain ⟨m', hw⟩ := walked_enter hp hat
      exact hw.refined (h.walked hw rfl rfl rfl (.inr ⟨rfl, rfl, rfl⟩))
  | @left frame e rest hpc =>
      rw [hpc] at hat
      obtain ⟨m', hw⟩ := walked_leave hm hp hat
      exact hw.refined (h.walked hw rfl rfl rfl (.inr ⟨rfl, rfl, rfl⟩))
  | threw hpc => exact Registry.refined (h.congr rfl rfl rfl rfl rfl)
  | unlocked hpc =>
      rw [hpc] at hat
      obtain ⟨m', hw⟩ := walked_end hp hat
      exact hw.refined (h.walked hw rfl rfl rfl (.inr ⟨rfl, rfl, rfl⟩))

/-! ## The loop -/

theorem LoopAt.eq_idle {l : Loop ι} {p : Phase (Op Bytes) (Loc Bytes)} (h : LoopAt l p)
    (hheld : l.exclusiveHeld = false) (hwants : l.wantsExclusive = false) : p = .idle := by
  cases h with
  | idle => rfl
  | emplacing | erasing => cases hwants
  | destroying => cases hheld

/-- The loop has moved, and the others are where they were. -/
theorem Registry.looped (h : Registry s m) {p : Phase (Op Bytes) (Loc Bytes)}
    (hthreads : m'.threads = m.threads.set 0 p) (hat : LoopAt s'.loop p)
    (hcollector : s'.collector = s.collector) (hmultimedia : s'.multimedia = s.multimedia)
    (map : ∀ id, m'.shared.map.lookup id = (s'.clientsMap.lookup id).map some)
    (made : m'.shared.useCounts.length = s'.clients.length)
    (destroyed : ∀ c : ℕ, c ∈ m'.shared.destroyed ↔ (s'.clients.map Client.lifetime)[c]? = some .destroyed)
    (held : m'.shared.held = s'.loop.got.toList)
    (got : ∀ c, s'.loop.got = some c → ∃ id, s'.clientsMap.lookup id = some c) : Registry s' m' where
  map := map
  made := made
  destroyed := destroyed
  held := held
  got := got
  size := by rw [hthreads, List.length_set]; exact h.size
  loop := ⟨p, by rw [hthreads]; exact List.getElem?_set_self (by rw [h.size]; decide), hat⟩
  collector := by
    obtain ⟨q, hq, hwalks⟩ := h.collector
    exact ⟨q, by rwa [hthreads, List.getElem?_set_ne (by decide)], hcollector ▸ hwalks⟩
  multimedia := by
    obtain ⟨q, hq, hwalks⟩ := h.multimedia
    exact ⟨q, by rwa [hthreads, List.getElem?_set_ne (by decide)], hmultimedia ▸ hwalks⟩

/-- The loop moves outside of the map. -/
theorem Registry.setLoop (h : Registry s m) (hheld : s.loop.exclusiveHeld = false)
    (hwants : s.loop.wantsExclusive = false) {l : Loop ι} (hheld' : l.exclusiveHeld = false)
    (hwants' : l.wantsExclusive = false) (hgot : l.got = s.loop.got) : Registry { s with loop := l } m where
  map := h.map
  made := h.made
  destroyed := h.destroyed
  held := h.held.trans (by rw [hgot])
  got c hc := h.got c (hgot ▸ hc)
  size := h.size
  loop := by
    obtain ⟨p, hp, hat⟩ := h.loop
    exact ⟨p, hp, hat.eq_idle hheld hwants ▸ .idle l hheld' hwants'⟩
  collector := h.collector
  multimedia := h.multimedia

/-- Nobody is in a traversal while nobody holds the shared lock. -/
theorem Registry.alone (h : Registry s m) (hshared : s.sharedHeld = false) {p : Phase (Op Bytes) (Loc Bytes)}
    (hp : m.threads[0]? = some p) : m.threads = [p, .idle, .idle] := by
  obtain ⟨q, hq, hcollector⟩ := h.collector
  obtain ⟨r, hr, hmultimedia⟩ := h.multimedia
  obtain ⟨hcnone, hmnone⟩ := sharedHeld_eq_false.mp hshared
  have hq' : q = .idle := by
    cases hc : s.collector with
    | walking | holding =>
        rw [hc] at hcnone
        cases hcnone
    | top | locking | done =>
        rw [hc] at hcollector
        cases hcollector
        rfl
  have hr' : r = .idle := by
    cases hc : s.multimedia with
    | walking | sending =>
        rw [hc] at hmnone
        cases hmnone
    | top | polling | locking | done =>
        rw [hc] at hmultimedia
        cases hmultimedia
        rfl
  rw [threads_eq h.size hp hq hr, hq', hr']

theorem Registry.acquire (h : Registry s m) (hm : Sound m) (hshared : s.sharedHeld = false) {op : Op Bytes}
    (ht : m.threads[0]? = some (.entering op)) (exclusive : Bool) :
    ∃ mutex, m.mutex.acquire exclusive = some mutex := by
  refine hm.locked.acquire (fun p hp => ?_) exclusive
  rw [h.alone hshared ht] at hp
  simp only [List.mem_cons, List.not_mem_nil, or_false] at hp
  rcases hp with rfl | rfl | rfl <;> simp

/-- A section of the loop, up to its first step. -/
theorem exec_section {op : Op Bytes} {mutex : Mutex} (hsize : m.threads.length = 3)
    (ht : m.threads[0]? = some (.entering op)) (hne : op ≠ .traverse)
    (hmutex : m.mutex.acquire op.exclusive = some mutex) {out : SafeUMap Bytes × (Loc Bytes ⊕ Ret Bytes)}
    (hnext : op.next .top .none m.shared = some out) :
    exec (SharedMutex.step (program Bytes)) m [.acquire 0 .none, .next 0 .none] =
      some (settle (program Bytes) { m with mutex := mutex, threads := m.threads.set 0 (.inside op .top) } 0 op
        out) := by
  have hstart : op.start .none m.shared = some .top := by
    cases op with
    | traverse => exact absurd rfl hne
    | emplace | get | erase => rfl
  refine exec_cons_some.mpr ⟨{ m with mutex := mutex, threads := m.threads.set 0 (.inside op .top) }, ?_, exec_one ?_⟩
  · have hexclusive : (program Bytes).exclusive op = op.exclusive := rfl
    simp only [SharedMutex.step, ht, hexclusive, hmutex]
    simp only [program, hstart, Option.bind_eq_bind, Option.bind_some]
  · have hinside : (m.threads.set 0 (.inside op .top))[0]? = some (.inside op .top) :=
      List.getElem?_set_self (by omega)
    simp only [SharedMutex.step, hinside]
    simp only [program, hnext, Option.map_some]

/-- No client is destroyed, or stops being so, where none is at its end. -/
theorem lifetimes_ne_destroyed {clients : List Client} {c : ClientRef} {k k' : Client}
    (hk : clients[c]? = some k) (hlifetime : k.lifetime ≠ .destroyed) (hlifetime' : k'.lifetime ≠ .destroyed)
    (c' : ℕ) : ((clients.set c k').map Client.lifetime)[c']? = some .destroyed ↔
      (clients.map Client.lifetime)[c']? = some .destroyed := by
  rw [List.map_set, List.getElem?_set]
  split_ifs with heq hlt
  · subst heq
    rw [List.getElem?_map, hk]
    simp [hlifetime, hlifetime']
  · subst heq
    rw [List.getElem?_eq_none (not_lt.mp hlt)]
    simp
  · rfl

theorem lookup_insert_some {a : AList fun _ : Bytes => SharedPtr} {b : ClientsMap}
    (h : ∀ id, a.lookup id = (b.lookup id).map some) (id : Bytes) (c : ClientRef) (id' : Bytes) :
    (a.insert id (some c)).lookup id' = ((b.insert id c).lookup id').map some := by
  by_cases heq : id' = id
  · rw [heq, AList.lookup_insert, AList.lookup_insert]
    rfl
  · rw [AList.lookup_insert_ne heq, AList.lookup_insert_ne heq, h]

theorem lookup_erase_some {a : AList fun _ : Bytes => SharedPtr} {b : ClientsMap}
    (h : ∀ id, a.lookup id = (b.lookup id).map some) (id id' : Bytes) :
    (a.erase id).lookup id' = ((b.erase id).lookup id').map some := by
  by_cases heq : id' = id
  · rw [heq, AList.lookup_erase, AList.lookup_erase]
    rfl
  · rw [AList.lookup_erase_ne heq, AList.lookup_erase_ne heq, h]

theorem ok_of_bind {ε α β : Type} {x : Except ε α} {f : α → Except ε β} {b : β} (h : x >>= f = .ok b) :
    ∃ a, x = .ok a ∧ f a = .ok b := by
  cases x with
  | error e => cases h
  | ok a => exact ⟨a, rfl, h⟩

/-- Only a registered client is answered. -/
theorem process_answer {clientsMap : ClientsMap} {message : Bytes} {c : ClientRef} {sdp : Bytes}
    (h : process C clientsMap message = .ok (.answer c sdp)) : ∃ id, clientsMap.lookup id = some c := by
  unfold process at h
  split at h
  case h_1 => cases h
  case h_2 jsonMsg _ =>
    split at h
    case h_1 => cases h
    case h_2 it _ =>
      obtain ⟨ioMode, -, h⟩ := ok_of_bind h
      split at h
      case h_1 => cases h
      case h_2 it _ =>
        obtain ⟨id, -, h⟩ := ok_of_bind h
        split at h
        case h_1 => cases h
        case h_2 it _ =>
          obtain ⟨type, -, h⟩ := ok_of_bind h
          split_ifs at h
          · unfold inputMessageHandler at h
            split at h
            case h_1 => cases h
            case h_2 =>
              split_ifs at h
              · cases h
              · split at h
                case h_1 => cases h
                case h_2 client hlookup =>
                  obtain ⟨value, -, h⟩ := ok_of_bind h
                  obtain ⟨sdp', -, h⟩ := ok_of_bind h
                  cases h
                  exact ⟨id, hlookup⟩
              · cases h
          · unfold outputMessageHandler at h
            split at h
            case h_1 => cases h
            case h_2 => split_ifs at h <;> cases h

/-- With a pointer in the map and one in the hand of the loop, its drop destroys nothing. -/
theorem Registry.two_le_useCount (h : Registry s m) (hm : Sound m) {c : ClientRef}
    (hgot : s.loop.got = some c) : 2 ≤ m.shared.useCount c := by
  obtain ⟨id, hlookup⟩ := h.got c hgot
  have hmap := h.map id
  rw [hlookup] at hmap
  have hmem : some c ∈ m.shared.map.entries.map Sigma.snd :=
    List.mem_map_of_mem (f := Sigma.snd) (AList.mem_lookup_iff.mp hmap)
  have hcount := List.count_pos_iff.mpr hmem
  have hheld : 0 < m.shared.held.count c := by
    rw [h.held, hgot]
    simp
  rw [hm.counted.useCount, owners, stored]
  omega

/-- The loop destroys a client when it has the last pointer. -/
theorem Registry.useCount_le_one (h : Registry s m) (hm : Sound m) (hs : Sane s) {c : ClientRef} {k : Client}
    (hpc : s.loop = .destroying c) (hk : s.clients[c]? = some k) (hlive : k.lifetime ≠ .live) :
    m.shared.useCount c ≤ 1 := by
  obtain ⟨p, hp, -⟩ := h.loop
  have hshared : s.sharedHeld = false := hs.exclusive (by rw [hpc]; rfl)
  have hheld : m.shared.held = [] := by
    rw [h.held, hpc]
    rfl
  have hmap : (m.shared.map.entries.map Sigma.snd).count (some c) = 0 := by
    refine List.count_eq_zero.mpr fun hmem => ?_
    obtain ⟨⟨id, value⟩, hentry, rfl⟩ := List.mem_map.mp hmem
    have hlookup := AList.mem_lookup_iff.mpr hentry
    rw [Option.mem_def, h.map, Option.map_eq_some_iff] at hlookup
    obtain ⟨c', hc', heq⟩ := hlookup
    cases heq
    obtain ⟨k', hk', -, hl⟩ := hs.registered id c hc'
    rw [hk] at hk'
    exact hlive (Option.some.inj hk' ▸ hl)
  have hidle : (pointer (.idle : Phase (Op Bytes) (Loc Bytes)) == some c) = false := rfl
  rw [hm.counted.useCount, owners, stored, hmap, hheld, h.alone hshared hp]
  simp only [List.count_nil, List.countP_cons, List.countP_nil, hidle, Bool.false_eq_true, if_false]
  split <;> simp

/-- **A step of the loop.** -/
theorem Registry.stepLoop {a : LoopAction} (h : Registry s m) (hm : Sound m) (hs : Sane s)
    (hst : LoopStepped C s a s') : Refined s' m := by
  obtain ⟨p, hp, hat⟩ := h.loop
  have hheld := h.held
  cases hst with
  | checked hpc =>
      refine Registry.refined (h.setLoop (by rw [hpc]; rfl) (by rw [hpc]; rfl) ?_ ?_ ?_)
      · split <;> rfl
      · split <;> rfl
      · rw [hpc]
        split <;> rfl
  | stopped hpc =>
      exact Registry.refined (h.setLoop (by rw [hpc]; rfl) (by rw [hpc]; rfl) rfl rfl (by rw [hpc]; rfl))
  | @popped item q verdict hpc hq hv =>
      rw [hpc] at hat hheld
      have hidle := hat.eq_idle rfl rfl
      subst hidle
      have hq' : Registry { s with signalingQueue := q } m := h.congr rfl rfl rfl rfl rfl
      cases verdict with
      | skip | send =>
          exact Registry.refined (hq'.setLoop (by rw [hpc]; rfl) (by rw [hpc]; rfl) rfl rfl (by rw [hpc]; rfl))
      | erase id =>
          have hst : SharedMutex.step (program Bytes) m (.call 0 (.erase id)) =
              some { m with threads := m.threads.set 0 (.entering (.erase id)) } := by
            simp only [SharedMutex.step, hp]
            rfl
          exact ⟨_, _, exec_one hst, h.looped rfl (.erasing id _) rfl rfl h.map h.made h.destroyed hheld
            fun _ heq => by cases heq⟩
      | request id =>
          have hnil : m.shared.held = [] := hheld
          have hmake : SharedMutex.step (program Bytes) m (.outside .make) =
              some { m with
                shared := { m.shared with
                  useCounts := m.shared.useCounts ++ [1]
                  held := [s.clients.length] } } := by
            rw [← h.made]
            simp only [SharedMutex.step, program, SafeUMap.outside, Option.map_some, hnil]
          have hcall : SharedMutex.step (program Bytes)
              { m with
                shared := { m.shared with
                  useCounts := m.shared.useCounts ++ [1]
                  held := [s.clients.length] } }
              (.call 0 (.emplace id (some s.clients.length))) =
              some { m with
                shared := { m.shared with useCounts := m.shared.useCounts ++ [1], held := [] }
                threads := m.threads.set 0 (.entering (.emplace id (some s.clients.length))) } := by
            simp only [SharedMutex.step, hp]
            simp [program, Op.pass]
          refine ⟨_, _, exec_two hmake hcall, h.looped rfl (.emplacing id _ _) rfl rfl h.map ?_ (fun c' => ?_) rfl
            fun _ heq => by cases heq⟩
          · simp [dispatch, h.made]
          · show c' ∈ m.shared.destroyed ↔ ((s.clients ++ [Client.new id]).map Client.lifetime)[c']? = _
            rw [h.destroyed, List.map_append, List.getElem?_append]
            split_ifs with hlt
            · rfl
            · rw [List.getElem?_eq_none (not_lt.mp hlt), List.map_singleton, List.getElem?_singleton]
              split_ifs <;> simp [Client.new]
      | answer c sdp =>
          obtain ⟨id, hlookup⟩ := process_answer hv
          have hsome : m.shared.map.lookup id = some (some c) := by
            rw [h.map, hlookup]
            rfl
          have hcall : SharedMutex.step (program Bytes) m (.call 0 (.get id)) =
              some { m with threads := m.threads.set 0 (.entering (.get id)) } := by
            simp only [SharedMutex.step, hp]
            rfl
          have hmutex : m.mutex.acquire false = some { m.mutex with readers := m.mutex.readers + 1 } :=
            if_pos (h.not_writer hm (by rw [hpc]; rfl))
          have hentering : (m.threads.set 0 (.entering (.get id)))[0]? = some (.entering (.get id)) :=
            List.getElem?_set_self (by rw [h.size]; decide)
          have hnext : (Op.get id : Op Bytes).next .top .none m.shared =
              some (m.shared.hold (some c), .inr (.pointer (some c))) := by
            simp only [Op.next, hsome]
          have hget := exec_section (m := { m with threads := m.threads.set 0 (.entering (.get id)) })
            (by rw [List.length_set]; exact h.size) hentering (by simp) hmutex hnext
          refine ⟨_, _, exec_cons_some.mpr ⟨_, hcall, hget⟩, ?_⟩
          refine h.looped (by simp only [settle, List.set_set]) (.idle _ rfl rfl) rfl rfl ?_ ?_ h.destroyed ?_ ?_
          · exact h.map
          · exact List.length_set.trans h.made
          · show [c] ++ m.shared.held = [c]
            rw [hheld]
            rfl
          · intro c' heq
            cases heq
            exact ⟨id, hlookup⟩
  | threw hpc => exact Registry.refined (h.congr rfl rfl rfl rfl rfl)
  | @emplaced id c source hpc hshared hmem =>
      rw [hpc] at hat hheld
      cases hat with
      | idle _ _ hwants => cases hwants
      | emplacing =>
          obtain ⟨mutex, hmutex⟩ := h.acquire hm hshared hp true
          have hnot : id ∉ m.shared.map := by
            rw [← AList.lookup_eq_none, h.map, AList.lookup_eq_none.mpr hmem]
            rfl
          refine ⟨_, _, exec_section h.size hp (by simp) hmutex (if_neg hnot), ?_⟩
          exact h.looped (by rw [settle, List.set_set]) (.idle _ rfl rfl) rfl rfl
            (lookup_insert_some h.map id c) h.made h.destroyed hheld fun _ heq => by cases heq
  | @discarded id c source client hpc hshared hmem hclient =>
      rw [hpc] at hat hheld
      cases hat with
      | idle _ _ hwants => cases hwants
      | emplacing =>
          obtain ⟨mutex, hmutex⟩ := h.acquire hm hshared hp true
          have hin : id ∈ m.shared.map := by
            rw [← AList.lookup_isSome, h.map, Option.isSome_map, AList.lookup_isSome]
            exact hmem
          obtain ⟨k, hk, -, hlive⟩ := (hs.emplacing id c source hpc).1
          obtain rfl := Option.some.inj (hclient.symm.trans hk)
          refine ⟨_, _, exec_section h.size hp (by simp) hmutex (if_pos hin), ?_⟩
          refine h.looped (by rw [settle, List.set_set]) (.destroying _ c false rfl) rfl rfl h.map
            (h.made.trans List.length_set.symm) (fun c' => ?_) hheld fun _ heq => by cases heq
          rw [lifetimes_ne_destroyed hclient (by simp [hlive]) (by simp)]
          exact h.destroyed c'
  | @absent id source hpc hshared hlookup =>
      rw [hpc] at hat hheld
      cases hat with
      | idle _ _ hwants => cases hwants
      | erasing =>
          obtain ⟨mutex, hmutex⟩ := h.acquire hm hshared hp true
          have hnone : m.shared.map.lookup id = none := by
            rw [h.map, hlookup]
            rfl
          have hnext : (Op.erase id : Op Bytes).next .top .none m.shared =
              some (m.shared, .inr (.result false)) := by
            simp only [Op.next, hnone]
          refine ⟨_, _, exec_section h.size hp (by simp) hmutex hnext, ?_⟩
          exact h.looped (by rw [settle, List.set_set]) (.idle _ rfl rfl) rfl rfl h.map h.made h.destroyed hheld
            fun _ heq => by cases heq
  | @erased id source c client hpc hshared hlookup hclient =>
      rw [hpc] at hat hheld
      cases hat with
      | idle _ _ hwants => cases hwants
      | erasing =>
          obtain ⟨mutex, hmutex⟩ := h.acquire hm hshared hp true
          have hsome : m.shared.map.lookup id = some (some c) := by
            rw [h.map, hlookup]
            rfl
          obtain ⟨k, hk, -, hlive⟩ := hs.registered id c hlookup
          obtain rfl := Option.some.inj (hclient.symm.trans hk)
          have hnext : (Op.erase id : Op Bytes).next .top .none m.shared =
              some ({ m.shared with map := m.shared.map.erase id }, .inl (.dropping (some c) true)) := by
            simp only [Op.next, hsome]
          refine ⟨_, _, exec_section h.size hp (by simp) hmutex hnext, ?_⟩
          · refine h.looped (by rw [settle, List.set_set]) (.destroying _ c true rfl) rfl rfl
              (lookup_erase_some h.map id) (h.made.trans List.length_set.symm) (fun c' => ?_) hheld
              fun _ heq => by cases heq
            rw [lifetimes_ne_destroyed hclient (by simp [hlive]) (by simp)]
            exact h.destroyed c'
  | @destroyed c client client' hpc hclient hdestroy =>
      rw [hpc] at hat hheld
      have hlive := (destroy_cases hdestroy).1
      have hbefore : client.lifetime ≠ .destroyed := by
        cases destroy_stepped hdestroy with
        | termSet hl | inStopped hl | outStopped hl | closed hl | joined hl =>
            rw [hl]
            simp
      by_cases hend : client'.lifetime = .destroyed
      · cases hat with
        | idle _ hexclusive => cases hexclusive
        | destroying op c result hexclusive =>
            have hlast := h.useCount_le_one hm hs hpc hclient hlive
            have hnext : op.next (.dropping (some c) result) .none m.shared =
                some (m.shared.release (some c), .inr (.result result)) := by
              cases op with
              | emplace | erase => rfl
              | get | traverse => cases hexclusive
            have hst : SharedMutex.step (program Bytes) m (.next 0 .none) =
                some (settle (program Bytes) m 0 op (m.shared.release (some c), .inr (.result result))) := by
              simp only [SharedMutex.step, hp]
              simp only [program, hnext, Option.map_some]
            refine ⟨_, _, exec_one hst, h.looped rfl ?_ rfl rfl ?_ ?_ (fun c' => ?_) ?_ ?_⟩
            · rw [if_pos hend]
              exact .idle _ rfl rfl
            · exact h.map
            · exact List.length_set.trans (h.made.trans List.length_set.symm)
            · have hdestroyed : (m.shared.release (some c)).destroyed = m.shared.destroyed ++ [c] := if_pos hlast
              show c' ∈ (m.shared.release (some c)).destroyed ↔ _
              rw [hdestroyed, List.mem_append, List.mem_singleton, h.destroyed, List.map_set, List.getElem?_set,
                hend]
              have hlt := (List.getElem?_eq_some_iff.mp hclient).1
              by_cases heq : c = c'
              · subst heq
                simp [hlt]
              · simp [heq, Ne.symm heq]
            · rw [if_pos hend]
              exact hheld
            · intro c' heq
              rw [if_pos hend] at heq
              cases heq
      · have hloop : (if client'.lifetime = .destroyed then .top else .destroying c : Loop ι) = .destroying c :=
          if_neg hend
        refine Registry.refined
          { h with
            made := h.made.trans List.length_set.symm
            destroyed := fun c' => ?_
            held := ?_
            got := ?_
            loop := ⟨p, hp, ?_⟩ }
        · rw [lifetimes_ne_destroyed hclient hbefore hend]
          exact h.destroyed c'
        · rw [hloop]
          exact hheld
        · rw [hloop]
          exact fun _ heq => by cases heq
        · rw [hloop]
          exact hat
  | @answered c sdp source client q hpc hclient hq =>
      have hgot : s.loop.got = some c := by
        rw [hpc]
        rfl
      rw [hpc] at hat hheld
      have hmem : c ∈ m.shared.held := by
        rw [hheld]
        exact List.mem_singleton_self c
      have hidle := hat.eq_idle rfl rfl
      subst hidle
      have hst : SharedMutex.step (program Bytes) m (.outside (.drop c)) =
          some { m with shared := { m.shared with held := m.shared.held.erase c }.release (some c) } := by
        simp only [SharedMutex.step, program, SafeUMap.outside, if_pos hmem, Option.map_some]
      have htwo := h.two_le_useCount hm hgot
      refine ⟨_, _, exec_one hst, h.looped (set_getElem?_self hp).symm (.idle _ rfl rfl) rfl rfl h.map ?_
        (fun c' => ?_) ?_ fun _ heq => by cases heq⟩
      · exact List.length_set.trans (h.made.trans List.length_set.symm)
      · have hsame : ({ m.shared with held := m.shared.held.erase c }.release (some c)).destroyed =
            m.shared.destroyed := if_neg (not_le.mpr htwo)
        have hlifetimes : (s.clients.set c { client with signalingQueueIn := q }).map Client.lifetime =
            s.clients.map Client.lifetime := lifetimes_set hclient rfl
        show c' ∈ ({ m.shared with held := m.shared.held.erase c }.release (some c)).destroyed ↔
          ((s.clients.set c { client with signalingQueueIn := q }).map Client.lifetime)[c']? = _
        rw [hsame, hlifetimes, h.destroyed]
      · show m.shared.held.erase c = []
        rw [hheld]
        simp [Loop.got]
  | sent hpc =>
      exact Registry.refined (h.setLoop (by rw [hpc]; rfl) (by rw [hpc]; rfl) rfl rfl (by rw [hpc]; rfl))
  | sendThrew hpc => exact Registry.refined (h.congr rfl rfl rfl rfl rfl)
  | joined hpc =>
      exact Registry.refined (h.setLoop (by rw [hpc]; rfl) (by rw [hpc]; rfl) rfl rfl (by rw [hpc]; rfl))

/-! ## Runs -/

theorem lifetime_kept {k k' : Client} {a : ClientAction} {f : Option Fault} (h : ClientStepped C k a k' f) :
    k'.lifetime = k.lifetime := by
  cases h <;> rfl

/-- The map is there before a step if it is afterwards. -/
theorem multimediaJoined_step {a : Action ι} (h : step C s a = some s')
    (hmap : s'.destructor.multimediaJoined = false) : s.destructor.multimediaJoined = false := by
  cases (step_cases h).2 with
  | onMessage h => cases h <;> exact hmap
  | collector h => cases h <;> exact hmap
  | loop h =>
      cases h with
      | @popped item q verdict => cases verdict <;> exact hmap
      | _ => exact hmap
  | multimedia h =>
      obtain ⟨m, q, f, rfl⟩ := stepMultimedia_frame h
      exact hmap
  | pushData h =>
      obtain ⟨cs, p, q, rfl⟩ := stepPushData_frame h
      exact hmap
  | client => exact hmap
  | destructor h =>
      cases h with
      | started hpc | signalingStopped hpc | webSocketClosed hpc | signalingJoined hpc | framesStopped hpc
      | multimediaJoined hpc =>
          rw [hpc]
          rfl
      | finished | released => cases hmap
      | destroyed hpc =>
          split at hmap <;> cases hmap

/-- **A step of the streamer.** -/
theorem Registry.step (h : Registry s m) (hm : Sound m) (hs : Sane s) {a : Action ι}
    (hst : step C s a = some s') (hmap : s'.destructor.multimediaJoined = false) : Refined s' m := by
  cases (step_cases hst).2 with
  | onMessage hst => cases hst <;> exact Registry.refined (h.congr rfl rfl rfl rfl rfl)
  | collector hst => exact h.stepCollector hm hst
  | loop hst => exact h.stepLoop hm hs hst
  | multimedia hst => exact h.stepMultimedia hm (stepMultimedia_cases hst)
  | pushData hst =>
      obtain ⟨cs, p, q, rfl⟩ := stepPushData_frame hst
      exact Registry.refined (h.congr rfl rfl rfl rfl rfl)
  | client hk hclient =>
      exact Registry.refined (h.congr rfl (lifetimes_set hk (lifetime_kept hclient)) rfl rfl rfl)
  | destructor hst =>
      cases hst with
      | started | signalingStopped | webSocketClosed | signalingJoined | framesStopped =>
          exact Registry.refined (h.congr rfl rfl rfl rfl rfl)
      | multimediaJoined | finished | released => cases hmap
      | destroyed hpc =>
          split at hmap <;> cases hmap

/-- **The registry is a `SafeUMap`.** Until the destructor of the streamer gets to it, every run is one of three
    threads around the map; and a client has been destroyed if and only if no pointer to it is left, in the map,
    in the loop or in a traversal. -/
theorem registry_refines {as : List (Action ι)} {s : State ι} (h : exec (step C) (init ι) as = some s)
    (hmap : s.destructor.multimediaJoined = false) :
    ∃ bs m, exec (SharedMutex.step (program Bytes)) (SafeUMap.start Bytes 3) bs = some m ∧ Registry s m ∧
      ∀ c k, s.clients[c]? = some k → (k.lifetime = .destroyed ↔ owners m c = 0) := by
  have hrun : ∃ bs m, exec (SharedMutex.step (program Bytes)) (SafeUMap.start Bytes 3) bs = some m ∧
      Registry s m := by
    revert hmap
    refine exec_induction (motive := fun _ s => s.destructor.multimediaJoined = false →
      ∃ bs m, exec (SharedMutex.step (program Bytes)) (SafeUMap.start Bytes 3) bs = some m ∧ Registry s m)
      ?_ ?_ as s h
    · exact fun _ => ⟨[], _, rfl, registry_init⟩
    · intro as s a s' has ih hst hmap
      obtain ⟨bs, m, hexec, hreg⟩ := ih (multimediaJoined_step hst hmap)
      obtain ⟨more, m', hmore, hreg'⟩ := hreg.step (exec_sound bs m hexec) (exec_sane has) hst hmap
      exact ⟨bs ++ more, m', exec_append_some.mpr ⟨m, hexec, hmore⟩, hreg'⟩
  obtain ⟨bs, m, hexec, hreg⟩ := hrun
  refine ⟨bs, m, hexec, hreg, fun c k hk => ?_⟩
  have hlt : c < m.shared.useCounts.length := by
    rw [hreg.made]
    exact (List.getElem?_eq_some_iff.mp hk).1
  have hdestroyed := hreg.destroyed c
  rw [(exec_sound bs m hexec).counted.destroyed, List.getElem?_map, hk, Option.map_some,
    Option.some_inj] at hdestroyed
  exact ⟨fun hl => (hdestroyed.mpr hl).2, fun hzero => hdestroyed.mp ⟨hlt, hzero⟩⟩

/-- A client has registered, and the multimedia thread is handing it a frame. -/
theorem registry_refines_traversal :
    ∃ (bs : List (SharedMutex.Action (Op Bytes) (Choice Bytes) Outside)) (m : Threads Bytes),
      exec (SharedMutex.step (program Bytes)) (SafeUMap.start Bytes 3) bs = some m ∧ owners m 0 ≠ 0 ∧
        ∃ p, m.threads[2]? = some p ∧ WalksAt (.calling []) p := by
  have hrun : ((exec (step JsonText.text) (init Unit)
      [.onMessage (.receive () (.text (str "\x7b\"id\":\"b\",\"type\":\"request\"\x7d"))), .onMessage .push,
        .loop .check, .loop .pop, .loop .emplace, .pushData (.call (some [1])), .pushData (.lock 0),
        .pushData (.stamp ⟨1, 0, by decide, by decide⟩), .pushData .push, .multimedia .check, .multimedia .pop,
        .multimedia (.lock [⟨str "b", 0⟩]), .multimedia .enter]).any fun s =>
      !s.destructor.multimediaJoined && (s.clients.map Client.lifetime) == [.live] &&
        s.multimedia == .sending ⟨[1], 1000000⟩ ⟨str "b", 0⟩ []) = true := by
    decide +kernel
  obtain ⟨s, hs, hall⟩ := (Option.any_eq_true _ _).mp hrun
  simp only [Bool.and_eq_true, Bool.not_eq_true', beq_iff_eq] at hall
  obtain ⟨⟨hmap, hlifetimes⟩, hmultimedia⟩ := hall
  obtain ⟨bs, m, hexec, hreg, hdestroyed⟩ := registry_refines hs hmap
  refine ⟨bs, m, hexec, fun hzero => ?_, ?_⟩
  · have hlive : (s.clients.map Client.lifetime)[0]? = some .live := by
      rw [hlifetimes]
      rfl
    obtain ⟨k, hk, hlifetime⟩ := Option.map_eq_some_iff.mp ((List.getElem?_map ..).symm.trans hlive)
    rw [(hdestroyed 0 k hk).mpr hzero] at hlifetime
    cases hlifetime
  · obtain ⟨p, hp, hat⟩ := hreg.multimedia
    rw [hmultimedia] at hat
    exact ⟨p, hp, hat⟩

end Streamer

end WebrtcStreamer
