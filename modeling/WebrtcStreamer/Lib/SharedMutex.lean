import WebrtcStreamer.Lib.Wakeup

/-!
# `Lib.SharedMutex` — a readers-writer lock, shared by any number of threads

A call takes the lock, shared or exclusive, and then runs a section of any number of steps before it gives the
lock back. Sections of other readers, and whatever happens without the lock, come in between its steps. An
`Outline` annotates the sections with what holds inside, like the proof outline of a program: it speaks about
the part of the state that the lock protects, and what a shared section does leaves that part alone.

## Contents
- **The machine.** `Program`, `step`, and its inversion `Stepped`.
- **Exclusion.** `exec_locked`: the lock counts the threads that are inside, and a writer is alone.
- **Linearizability.** `exec_explained`: by the outline, every run is explained by a sequential execution of the
  calls of its log.
- **Progress.** `exists_idle`: if sections end, all calls can return.
-/

namespace SharedMutex

open Transition

/-! ## The machine -/

/-- The calls around a state `σ`. Whatever is not up to the program is a choice `Ch`; `Ext` is what happens
    without the lock. -/
structure Program (σ Op Loc Res Ch Ext : Type) where
  exclusive : Op → Bool
  /-- What a call does before it asks for the lock. -/
  pass : Op → σ → Option σ
  start : Op → Ch → σ → Option Loc
  next : Op → Loc → Ch → σ → Option (σ × (Loc ⊕ Res))
  outside : Ext → σ → Option σ

structure Mutex where
  readers : ℕ
  writer : Bool
deriving DecidableEq

namespace Mutex

def acquire (m : Mutex) (exclusive : Bool) : Option Mutex :=
  match exclusive with
  | true => if m.readers = 0 ∧ m.writer = false then some { m with writer := true } else none
  | false => if m.writer = false then some { m with readers := m.readers + 1 } else none

def release (m : Mutex) (exclusive : Bool) : Mutex :=
  match exclusive with
  | true => { m with writer := false }
  | false => { m with readers := m.readers - 1 }

end Mutex

inductive Phase (Op Loc : Type)
  | idle
  | entering (op : Op)
  | inside (op : Op) (loc : Loc)
deriving DecidableEq

/-- `log` lists the completed calls in the order in which they gave the lock back. -/
structure State (σ Op Loc Res : Type) where
  shared : σ
  mutex : Mutex
  threads : List (Phase Op Loc)
  log : List (Op × Res)

inductive Action (Op Ch Ext : Type)
  | call (t : ℕ) (op : Op)
  | acquire (t : ℕ) (choice : Ch)
  | next (t : ℕ) (choice : Ch)
  | outside (e : Ext)

variable {σ τ Op Loc Res Ch Ext : Type}

/-- What one step of a section makes of the thread, and of the lock if it is the last. -/
def settle (M : Program σ Op Loc Res Ch Ext) (s : State σ Op Loc Res) (t : ℕ) (op : Op) :
    σ × (Loc ⊕ Res) → State σ Op Loc Res
  | (shared, .inl loc) => { s with shared := shared, threads := s.threads.set t (.inside op loc) }
  | (shared, .inr r) =>
      { shared := shared
        mutex := s.mutex.release (M.exclusive op)
        threads := s.threads.set t .idle
        log := s.log ++ [(op, r)] }

def step (M : Program σ Op Loc Res Ch Ext) (s : State σ Op Loc Res) :
    Action Op Ch Ext → Option (State σ Op Loc Res)
  | .call t op =>
      match s.threads[t]? with
      | some .idle =>
          (M.pass op s.shared).map fun shared =>
            { s with shared := shared, threads := s.threads.set t (.entering op) }
      | _ => none
  | .acquire t choice =>
      match s.threads[t]? with
      | some (.entering op) => do
          let mutex ← s.mutex.acquire (M.exclusive op)
          let loc ← M.start op choice s.shared
          some { s with mutex := mutex, threads := s.threads.set t (.inside op loc) }
      | _ => none
  | .next t choice =>
      match s.threads[t]? with
      | some (.inside op loc) => (M.next op loc choice s.shared).map (settle M s t op)
      | _ => none
  | .outside e => (M.outside e s.shared).map fun shared => { s with shared := shared }

/-- `n` idle threads around a fresh state. -/
def init (s₀ : σ) (n : ℕ) : State σ Op Loc Res :=
  { shared := s₀, mutex := ⟨0, false⟩, threads := List.replicate n .idle, log := [] }

variable {M : Program σ Op Loc Res Ch Ext} {s s' : State σ Op Loc Res}

/-- The ways through `step`. -/
inductive Stepped (M : Program σ Op Loc Res Ch Ext) (s : State σ Op Loc Res) :
    Action Op Ch Ext → State σ Op Loc Res → Prop
  | called (t : ℕ) (op : Op) (shared : σ) : s.threads[t]? = some .idle → M.pass op s.shared = some shared →
      Stepped M s (.call t op) { s with shared := shared, threads := s.threads.set t (.entering op) }
  | acquired (t : ℕ) (op : Op) (choice : Ch) (mutex : Mutex) (loc : Loc) :
      s.threads[t]? = some (.entering op) → s.mutex.acquire (M.exclusive op) = some mutex →
      M.start op choice s.shared = some loc →
      Stepped M s (.acquire t choice) { s with mutex := mutex, threads := s.threads.set t (.inside op loc) }
  | moved (t : ℕ) (op : Op) (loc loc' : Loc) (choice : Ch) (shared : σ) :
      s.threads[t]? = some (.inside op loc) → M.next op loc choice s.shared = some (shared, .inl loc') →
      Stepped M s (.next t choice) { s with shared := shared, threads := s.threads.set t (.inside op loc') }
  | returned (t : ℕ) (op : Op) (loc : Loc) (choice : Ch) (shared : σ) (r : Res) :
      s.threads[t]? = some (.inside op loc) → M.next op loc choice s.shared = some (shared, .inr r) →
      Stepped M s (.next t choice)
        { shared := shared
          mutex := s.mutex.release (M.exclusive op)
          threads := s.threads.set t .idle
          log := s.log ++ [(op, r)] }
  | elsewhere (e : Ext) (shared : σ) : M.outside e s.shared = some shared →
      Stepped M s (.outside e) { s with shared := shared }

/-- **Inversion of a step.** -/
theorem stepped_of_step {a : Action Op Ch Ext} (h : step M s a = some s') : Stepped M s a s' := by
  cases a with
  | call t op =>
      simp only [step] at h
      split at h
      case h_1 ht =>
        obtain ⟨shared, hpass, rfl⟩ := Option.map_eq_some_iff.mp h
        exact .called t op shared ht hpass
      case h_2 => cases h
  | acquire t choice =>
      simp only [step] at h
      split at h
      case h_1 op ht =>
        obtain ⟨mutex, hmutex, h⟩ := Option.bind_eq_some_iff.mp h
        obtain ⟨loc, hloc, h⟩ := Option.bind_eq_some_iff.mp h
        cases h
        exact .acquired t op choice mutex loc ht hmutex hloc
      case h_2 => cases h
  | next t choice =>
      simp only [step] at h
      split at h
      case h_1 op loc ht =>
        obtain ⟨⟨shared, out⟩, hnext, rfl⟩ := Option.map_eq_some_iff.mp h
        cases out with
        | inl loc' => exact .moved t op loc loc' choice shared ht hnext
        | inr r => exact .returned t op loc choice shared r ht hnext
      case h_2 => cases h
  | outside e =>
      obtain ⟨shared, hout, rfl⟩ := Option.map_eq_some_iff.mp h
      exact .elsewhere e shared hout

/-! ## Exclusion -/

/-- In a section with the lock held so. -/
def Phase.holds (M : Program σ Op Loc Res Ch Ext) (exclusive : Bool) : Phase Op Loc → Bool
  | .inside op _ => M.exclusive op == exclusive
  | _ => false

/-- The lock counts the threads that are inside. -/
structure Locked (M : Program σ Op Loc Res Ch Ext) (s : State σ Op Loc Res) : Prop where
  readers : s.threads.countP (Phase.holds M false) = s.mutex.readers
  writer : s.threads.countP (Phase.holds M true) = s.mutex.writer.toNat
  alone : s.mutex.writer = true → s.mutex.readers = 0

theorem locked_init (s₀ : σ) (n : ℕ) : Locked M (init s₀ n) where
  readers := by simp [init, List.countP_replicate, Phase.holds]
  writer := by simp [init, List.countP_replicate, Phase.holds]
  alone := by simp [init]

/-- A thread moves without touching the lock. -/
theorem Locked.set (h : Locked M s) {t : ℕ} {p q : Phase Op Loc} (ht : s.threads[t]? = some p)
    (hpq : ∀ exclusive, p.holds M exclusive = q.holds M exclusive) (shared : σ) :
    Locked M { s with shared := shared, threads := s.threads.set t q } := by
  have hcount : ∀ exclusive, (s.threads.set t q).countP (Phase.holds M exclusive) =
      s.threads.countP (Phase.holds M exclusive) := by
    intro exclusive
    have hmove := Monitor.countP_move (f := Phase.holds M exclusive) (q := q) ht
    rw [hpq exclusive] at hmove
    exact Nat.add_right_cancel hmove
  exact ⟨(hcount false).trans h.readers, (hcount true).trans h.writer, h.alone⟩

theorem Locked.step (h : Locked M s) {a : Action Op Ch Ext} (hst : Stepped M s a s') : Locked M s' := by
  cases hst with
  | called t op shared ht => exact h.set (q := .entering op) ht (fun _ => rfl) shared
  | moved t op loc loc' choice shared ht => exact h.set (q := .inside op loc') ht (fun _ => rfl) shared
  | elsewhere e shared => exact ⟨h.readers, h.writer, h.alone⟩
  | acquired t op choice mutex loc ht hmutex =>
      -- One more holds the lock, as a writer or as a reader; the mutex has let it in.
      have hreaders := Monitor.countP_move (f := Phase.holds M false) (q := .inside op loc) ht
      have hwriter := Monitor.countP_move (f := Phase.holds M true) (q := .inside op loc) ht
      rw [h.readers] at hreaders
      rw [h.writer] at hwriter
      cases hex : M.exclusive op with
      | true =>
          simp only [hex, Mutex.acquire] at hmutex
          split_ifs at hmutex with hfree
          cases hmutex
          simp only [Phase.holds, hex, hfree.1, hfree.2, Bool.true_beq, Bool.toNat_false, Bool.toNat_true,
            Nat.add_zero] at hreaders hwriter
          exact ⟨hreaders.trans hfree.1.symm, hwriter, fun _ => hfree.1⟩
      | false =>
          simp only [hex, Mutex.acquire] at hmutex
          split_ifs at hmutex with hfree
          cases hmutex
          simp only [Phase.holds, hex, hfree, Bool.false_beq, Bool.not_true, Bool.not_false, Bool.toNat_false,
            Bool.toNat_true, Nat.add_zero] at hreaders hwriter
          exact ⟨hreaders, by rw [hwriter, hfree]; rfl, fun hw => absurd hw (by simp [hfree])⟩
  | returned t op loc choice shared r ht =>
      -- One holds it less: the writer, which was alone, or one of the readers.
      have hreaders := Monitor.countP_move (f := Phase.holds M false) (q := .idle) ht
      have hwriter := Monitor.countP_move (f := Phase.holds M true) (q := .idle) ht
      rw [h.readers] at hreaders
      rw [h.writer] at hwriter
      cases hex : M.exclusive op with
      | true =>
          simp only [Phase.holds, hex, Bool.true_beq, Bool.toNat_false, Bool.toNat_true,
            Nat.add_zero] at hreaders hwriter
          have hle := Bool.toNat_le s.mutex.writer
          have hnone : (s.threads.set t .idle).countP (Phase.holds M true) = 0 := by omega
          exact ⟨hreaders, hnone, fun hw => absurd hw (by simp [Mutex.release])⟩
      | false =>
          simp only [Phase.holds, hex, Bool.false_beq, Bool.not_true, Bool.not_false, Bool.toNat_false,
            Bool.toNat_true, Nat.add_zero] at hreaders hwriter
          have hone : (s.threads.set t .idle).countP (Phase.holds M false) = s.mutex.readers - 1 := by omega
          exact ⟨hone, hwriter, fun hw => by simp [Mutex.release, h.alone hw]⟩

/-- **Every run.** -/
theorem exec_locked {s₀ : σ} {n : ℕ} : ∀ as s, exec (step M) (init s₀ n) as = some s → Locked M s :=
  exec_invariant (locked_init s₀ n) fun _ _ _ hi hst => hi.step (stepped_of_step hst)

theorem Locked.holds_pos {t : ℕ} {op : Op} {loc : Loc} (ht : s.threads[t]? = some (.inside op loc)) :
    0 < s.threads.countP (Phase.holds M (M.exclusive op)) :=
  List.countP_pos_iff.mpr ⟨_, List.mem_of_getElem? ht, beq_self_eq_true _⟩

/-- Beside a reader there is no writer. -/
theorem Locked.not_writer (h : Locked M s) {t : ℕ} {op : Op} {loc : Loc}
    (ht : s.threads[t]? = some (.inside op loc)) (hex : M.exclusive op = false) : s.mutex.writer = false := by
  have hpos := Locked.holds_pos (M := M) ht
  rw [hex, h.readers] at hpos
  by_contra hw
  rw [h.alone (by simpa using hw)] at hpos
  exact absurd hpos (lt_irrefl 0)

theorem Locked.writer_eq (h : Locked M s) {t : ℕ} {op : Op} {loc : Loc}
    (ht : s.threads[t]? = some (.inside op loc)) (hex : M.exclusive op = true) : s.mutex.writer = true := by
  have hpos := Locked.holds_pos (M := M) ht
  rw [hex, h.writer] at hpos
  by_contra hw
  rw [Bool.not_eq_true] at hw
  rw [hw] at hpos
  exact absurd hpos (lt_irrefl 0)

/-- **A writer is alone.** -/
theorem Locked.eq_of_writer (h : Locked M s) {t t' : ℕ} {op op' : Op} {loc loc' : Loc}
    (ht : s.threads[t]? = some (.inside op loc)) (hex : M.exclusive op = true)
    (ht' : s.threads[t']? = some (.inside op' loc')) : t' = t := by
  have hwriter := h.writer_eq ht hex
  have hex' : M.exclusive op' = true := by
    by_contra hne
    rw [h.not_writer ht' (by simpa using hne)] at hwriter
    cases hwriter
  by_contra hne
  -- with the one taken away, the other still counts
  have hmove := Monitor.countP_move (f := Phase.holds M true) (q := .idle) ht
  have hrest : 0 < (s.threads.set t .idle).countP (Phase.holds M true) := by
    refine List.countP_pos_iff.mpr ⟨.inside op' loc', List.mem_of_getElem? (i := t') ?_, ?_⟩
    · rw [List.getElem?_set_ne (Ne.symm hne)]
      exact ht'
    · simp [Phase.holds, hex']
  rw [h.writer] at hmove
  simp only [Phase.holds, hex, beq_self_eq_true, Bool.toNat_true, Bool.toNat_false, hwriter] at hmove
  omega

/-! ## Linearizability -/

/-- An annotation of the sections. `view` is what the lock protects; `inside op v loc w` holds at `loc` when the
    view was `v` on entry and is `w` now; `post op v r w` is what the call does. -/
structure Outline (M : Program σ Op Loc Res Ch Ext) (view : σ → τ) where
  inside : Op → τ → Loc → τ → Prop
  post : Op → τ → Res → τ → Prop
  pass : ∀ {op s s'}, M.pass op s = some s' → view s' = view s
  outside : ∀ {e s s'}, M.outside e s = some s' → view s' = view s
  reads : ∀ {op loc choice s s' out}, M.exclusive op = false → M.next op loc choice s = some (s', out) →
    view s' = view s
  start : ∀ {op choice s loc}, M.start op choice s = some loc → inside op (view s) loc (view s)
  next : ∀ {op v loc choice s s' loc'}, inside op v loc (view s) →
    M.next op loc choice s = some (s', .inl loc') → inside op v loc' (view s')
  done : ∀ {op v loc choice s s' r}, inside op v loc (view s) →
    M.next op loc choice s = some (s', .inr r) → post op v r (view s')

/-- The calls of a log, one after the other. -/
inductive Sequential (post : Op → τ → Res → τ → Prop) (v₀ : τ) : List (Op × Res) → τ → Prop
  | nil : Sequential post v₀ [] v₀
  | snoc {log : List (Op × Res)} {v w : τ} {op : Op} {r : Res} :
      Sequential post v₀ log v → post op v r w → Sequential post v₀ (log ++ [(op, r)]) w

variable {view : σ → τ}

/-- Where the completed calls lead to is what every section started from, and what is there now if there is no
    writer. -/
structure Explained (P : Outline M view) (v₀ : τ) (s : State σ Op Loc Res) (v : τ) : Prop where
  sequential : Sequential P.post v₀ s.log v
  inside : ∀ (t : ℕ) (op : Op) (loc : Loc), s.threads[t]? = some (.inside op loc) →
    P.inside op v loc (view s.shared)
  now : s.mutex.writer = false → view s.shared = v

theorem explained_init (P : Outline M view) (s₀ : σ) (n : ℕ) :
    Explained P (view s₀) (init s₀ n) (view s₀) where
  sequential := .nil
  inside t op loc ht := by
    rw [init, List.getElem?_replicate] at ht
    split_ifs at ht
    simp at ht
  now _ := rfl

/-- The other threads are where they were. -/
theorem Explained.inside_set {P : Outline M view} {v₀ v : τ} (h : Explained P v₀ s v) {t : ℕ}
    {q : Phase Op Loc} {w : τ} (hview : w = view s.shared)
    (hq : ∀ op loc, q = .inside op loc → P.inside op v loc w) :
    ∀ (t' : ℕ) (op : Op) (loc : Loc), (s.threads.set t q)[t']? = some (.inside op loc) →
      P.inside op v loc w := by
  intro t' op loc ht'
  rw [List.getElem?_set] at ht'
  split_ifs at ht' with heq
  · exact hq op loc (Option.some.inj ht')
  · rw [hview]
    exact h.inside t' op loc ht'

/-- **One step of the explanation.** -/
theorem Explained.step {P : Outline M view} {v₀ v : τ} (h : Explained P v₀ s v) (hl : Locked M s)
    {a : Action Op Ch Ext} (hst : Stepped M s a s') : ∃ v', Explained P v₀ s' v' := by
  have hl' := hl.step hst
  cases hst with
  | called t op shared ht hpass =>
      have hview := P.pass hpass
      exact ⟨v, h.sequential, h.inside_set hview (by simp), fun hw => hview.trans (h.now hw)⟩
  | elsewhere e shared hout =>
      have hview := P.outside hout
      refine ⟨v, h.sequential, fun t op loc ht => ?_, fun hw => hview.trans (h.now hw)⟩
      rw [hview]
      exact h.inside t op loc ht
  | acquired t op choice mutex loc ht hmutex hstart =>
      -- Whoever gets in, there was no writer, so it sees what the completed calls have left.
      have hfree : s.mutex.writer = false := by
        cases hex : M.exclusive op with
        | true =>
            simp only [hex, Mutex.acquire] at hmutex
            split_ifs at hmutex with hfree
            exact hfree.2
        | false =>
            simp only [hex, Mutex.acquire] at hmutex
            split_ifs at hmutex with hfree
            exact hfree
      refine ⟨v, h.sequential, h.inside_set rfl ?_, fun _ => h.now hfree⟩
      rintro op' loc' heq
      obtain ⟨rfl, rfl⟩ := Phase.inside.inj heq
      have hinside := P.start hstart
      rwa [h.now hfree] at hinside ⊢
  | moved t op loc loc' choice shared ht hnext =>
      have hin := P.next (h.inside t op loc ht) hnext
      cases hex : M.exclusive op with
      -- A writer may change the view, but nobody else is inside.
      | true =>
          refine ⟨v, h.sequential, fun t' op' loc₂ ht' => ?_, fun hw => ?_⟩
          · have hmem : (s.threads.set t (.inside op loc'))[t]? = some (.inside op loc') :=
              List.getElem?_set_self (List.getElem?_eq_some_iff.mp ht).1
            obtain rfl := hl'.eq_of_writer hmem hex ht'
            obtain ⟨rfl, rfl⟩ := Phase.inside.inj (Option.some.inj (hmem.symm.trans ht'))
            exact hin
          · rw [hl.writer_eq ht hex] at hw
            cases hw
      | false =>
          have hview := P.reads hex hnext
          refine ⟨v, h.sequential, h.inside_set hview ?_, fun hw => hview.trans (h.now hw)⟩
          rintro op' loc₂ heq
          obtain ⟨rfl, rfl⟩ := Phase.inside.inj heq
          exact hin
  | returned t op loc choice shared r ht hnext =>
      -- The call takes effect when it returns: a writer has been alone, and a reader has changed nothing.
      have hpost := P.done (h.inside t op loc ht) hnext
      refine ⟨view shared, h.sequential.snoc hpost, ?_, fun _ => rfl⟩
      intro t' op' loc' ht'
      rw [List.getElem?_set] at ht'
      split_ifs at ht' with heq
      · simp at ht'
      · cases hex : M.exclusive op with
        | true => exact absurd (hl.eq_of_writer ht hex ht').symm heq
        | false =>
            have hview := P.reads hex hnext
            have hnow := h.now (hl.not_writer ht hex)
            have hin := h.inside t' op' loc' ht'
            rwa [hview, hnow] at *

/-- **Linearizability.** -/
theorem exec_explained (P : Outline M view) {s₀ : σ} {n : ℕ} {as : List (Action Op Ch Ext)}
    (h : exec (step M) (init s₀ n) as = some s) : ∃ v, Explained P (view s₀) s v := by
  have hall : Locked M s ∧ ∃ v, Explained P (view s₀) s v := by
    refine exec_invariant (I := fun s => Locked M s ∧ ∃ v, Explained P (view s₀) s v)
      ⟨locked_init s₀ n, _, explained_init P s₀ n⟩ ?_ as s h
    rintro s a s' ⟨hl, v, hv⟩ hst
    exact ⟨hl.step (stepped_of_step hst), hv.step hl (stepped_of_step hst)⟩
  exact hall.2

/-! ## Progress -/

/-- Every section can start and, by a measure that goes down, end. -/
structure Ending (M : Program σ Op Loc Res Ch Ext) where
  /-- Where a call may be. -/
  place : Op → Loc → Prop
  measure : Loc → ℕ
  start : ∀ op s, ∃ choice loc, M.start op choice s = some loc
  started : ∀ {op choice s loc}, M.start op choice s = some loc → place op loc
  moved : ∀ {op loc choice s s' loc'}, place op loc → M.next op loc choice s = some (s', .inl loc') →
    place op loc'
  ends : ∀ {op loc}, place op loc → ∀ s, ∃ choice s' out, M.next op loc choice s = some (s', out) ∧
    ∀ loc', out = .inl loc' → measure loc' < measure loc

/-- Every thread that is inside is where its call may be. -/
def Placed (E : Ending M) (s : State σ Op Loc Res) : Prop :=
  ∀ (t : ℕ) (op : Op) (loc : Loc), s.threads[t]? = some (.inside op loc) → E.place op loc

theorem placed_init (E : Ending M) (s₀ : σ) (n : ℕ) : Placed E (init s₀ n) := by
  intro t op loc ht
  rw [init, List.getElem?_replicate] at ht
  split_ifs at ht
  simp at ht

theorem Placed.set {E : Ending M} (h : Placed E s) {t : ℕ} {q : Phase Op Loc}
    (hq : ∀ op loc, q = .inside op loc → E.place op loc) {t' : ℕ} {op : Op} {loc : Loc}
    (ht' : (s.threads.set t q)[t']? = some (.inside op loc)) : E.place op loc := by
  rw [List.getElem?_set] at ht'
  split_ifs at ht'
  · exact hq op loc (Option.some.inj ht')
  · exact h t' op loc ht'

theorem Placed.step {E : Ending M} (h : Placed E s) {a : Action Op Ch Ext} (hst : Stepped M s a s') : Placed E s' := by
  cases hst with
  | called | returned => exact fun t' op' loc' ht' => h.set (by simp) ht'
  | elsewhere => exact h
  | acquired t op choice mutex loc ht hmutex hstart =>
      refine fun t' op' loc' ht' => h.set (fun op₂ loc₂ heq => ?_) ht'
      obtain ⟨rfl, rfl⟩ := Phase.inside.inj heq
      exact E.started hstart
  | moved t op loc loc' choice shared ht hnext =>
      refine fun t' op' loc₁ ht' => h.set (fun op₂ loc₂ heq => ?_) ht'
      obtain ⟨rfl, rfl⟩ := Phase.inside.inj heq
      exact E.moved (h t op loc ht) hnext

/-- A call that has not returned. -/
def Phase.busy : Phase Op Loc → Bool
  | .idle => false
  | _ => true

/-- **A thread that is inside can leave**, by induction on the measure. -/
theorem exists_leave (E : Ending M) {t : ℕ} {op : Op} {loc : Loc}
    (ht : s.threads[t]? = some (.inside op loc)) (hplace : E.place op loc) :
    ∃ as s', exec (step M) s as = some s' ∧ s'.threads = s.threads.set t .idle ∧
      ∃ r, s'.log = s.log ++ [(op, r)] := by
  induction hn : E.measure loc using Nat.strongRecOn generalizing s loc with
  | ind n ih =>
      obtain ⟨choice, shared, out, hnext, hless⟩ := E.ends hplace s.shared
      have hst : step M s (.next t choice) = some (settle M s t op (shared, out)) := by
        simp only [step, ht, hnext, Option.map_some]
      cases out with
      | inr r => exact ⟨[.next t choice], _, exec_cons_some.mpr ⟨_, hst, rfl⟩, rfl, r, rfl⟩
      | inl loc' =>
          have hlt := (List.getElem?_eq_some_iff.mp ht).1
          obtain ⟨as, s', hexec, hthreads, r, hlog⟩ :=
            ih (E.measure loc') (hn ▸ hless loc' rfl) (s := settle M s t op (shared, .inl loc'))
              (List.getElem?_set_self hlt) (E.moved hplace hnext) rfl
          refine ⟨.next t choice :: as, s', exec_cons_some.mpr ⟨_, hst, hexec⟩, ?_, r, hlog⟩
          rw [hthreads, settle, List.set_set]

theorem Locked.acquire (h : Locked M s) (hnone : ∀ p ∈ s.threads, ∀ op loc, p ≠ .inside op loc)
    (exclusive : Bool) : ∃ mutex, s.mutex.acquire exclusive = some mutex := by
  have hzero : ∀ exclusive, s.threads.countP (Phase.holds M exclusive) = 0 := by
    intro exclusive
    refine List.countP_eq_zero.mpr fun p hp => ?_
    cases p with
    | inside op loc => exact absurd rfl (hnone _ hp op loc)
    | idle | entering => simp [Phase.holds]
  have hreaders := h.readers
  have hwriter := h.writer
  rw [hzero] at hreaders hwriter
  have hfree : s.mutex.writer = false := by
    cases hw : s.mutex.writer with
    | false => rfl
    | true => simp [hw] at hwriter
  cases exclusive with
  | true => exact ⟨_, if_pos ⟨hreaders.symm, hfree⟩⟩
  | false => exact ⟨_, if_pos hfree⟩

/-- **All calls can return**: one that is inside first, and with the lock free any other. -/
theorem exists_idle (E : Ending M) (hl : Locked M s) (hp : Placed E s) :
    ∃ as s', exec (step M) s as = some s' ∧ s'.threads.countP Phase.busy = 0 ∧
      s'.log.length = s.log.length + s.threads.countP Phase.busy := by
  induction hn : s.threads.countP Phase.busy generalizing s with
  | zero => exact ⟨[], s, rfl, hn, rfl⟩
  | succ n ih =>
      -- one call returns, the others stay where they are
      have hone : ∃ as s₁, exec (step M) s as = some s₁ ∧ s₁.threads.countP Phase.busy = n ∧
          s₁.log.length = s.log.length + 1 := by
        by_cases hin : ∃ p ∈ s.threads, ∃ op loc, p = .inside op loc
        · obtain ⟨_, hmem, op, loc, rfl⟩ := hin
          obtain ⟨t, ht⟩ := List.getElem?_of_mem hmem
          obtain ⟨as, s₁, hexec, hthreads, r, hlog⟩ := exists_leave E ht (hp t op loc ht)
          have hmove := Monitor.countP_move (f := Phase.busy) (q := .idle) ht
          simp only [Phase.busy, Bool.toNat_true, Bool.toNat_false, hn] at hmove
          exact ⟨as, s₁, hexec, by rw [hthreads]; exact Nat.succ.inj hmove, by simp [hlog]⟩
        · have hnone : ∀ p ∈ s.threads, ∀ op loc, p ≠ .inside op loc := fun p hmem op loc heq =>
            hin ⟨p, hmem, op, loc, heq⟩
          have hpos : 0 < s.threads.countP Phase.busy := by omega
          obtain ⟨p, hmem, hbusy⟩ := List.countP_pos_iff.mp hpos
          obtain ⟨t, ht⟩ := List.getElem?_of_mem hmem
          cases p with
          | idle => cases hbusy
          | inside op loc => exact absurd rfl (hnone _ hmem op loc)
          | entering op =>
              obtain ⟨mutex, hmutex⟩ := hl.acquire hnone (M.exclusive op)
              obtain ⟨choice, loc, hstart⟩ := E.start op s.shared
              have hst : step M s (.acquire t choice) =
                  some { s with mutex := mutex, threads := s.threads.set t (.inside op loc) } := by
                simp only [step, ht, hmutex, hstart, Option.bind_eq_bind, Option.bind_some]
              obtain ⟨as, s₁, hexec, hthreads, r, hlog⟩ :=
                exists_leave E (s := { s with mutex := mutex, threads := s.threads.set t (.inside op loc) })
                  (List.getElem?_set_self (List.getElem?_eq_some_iff.mp ht).1) (E.started hstart)
              have hmove := Monitor.countP_move (f := Phase.busy) (q := .idle) ht
              simp only [Phase.busy, Bool.toNat_true, Bool.toNat_false, hn] at hmove
              refine ⟨.acquire t choice :: as, s₁, exec_cons_some.mpr ⟨_, hst, hexec⟩, ?_, by simp [hlog]⟩
              rw [hthreads, List.set_set]
              exact Nat.succ.inj hmove
      obtain ⟨as, s₁, hexec, hcount, hlog⟩ := hone
      have hkeep : Locked M s₁ ∧ Placed E s₁ :=
        exec_invariant (I := fun s => Locked M s ∧ Placed E s) ⟨hl, hp⟩
          (fun _ _ _ hi hst => ⟨hi.1.step (stepped_of_step hst), hi.2.step (stepped_of_step hst)⟩) as s₁ hexec
      obtain ⟨bs, s₂, hexec', hidle, hlog'⟩ := ih hkeep.1 hkeep.2 hcount
      exact ⟨as ++ bs, s₂, exec_append_some.mpr ⟨s₁, hexec, hexec'⟩, hidle, by omega⟩

end SharedMutex
