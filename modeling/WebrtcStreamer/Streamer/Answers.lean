import WebrtcStreamer.Streamer.Shutdown

/-!
# `Streamer.Answers` — the way of an answer to the `PeerConnection`

`signalingSet` queues an answer, the client's signaling thread takes it and applies it. `Inbox` relates the
histories of one client: the answers come out in the order in which they went in, and each one that is taken
is applied before the next.
-/

namespace WebrtcStreamer

namespace Streamer

open Transition

variable {ι : Type} {C : Codec}

/-! ## Histories -/

/-- The answer that a client's thread is applying. -/
def ClientThread.sdp? : ClientThread → Option Bytes
  | .applying sdp => some sdp
  | _ => none

/-- An answer that is passed to `signalingSet` of `c`. -/
def answered (c : ClientRef) (s : State ι) : Action ι → List Bytes
  | .loop .answer =>
      match s.loop with
      | .answering d sdp _ => if d = c then [sdp] else []
      | _ => []
  | _ => []

/-- An answer that the thread of `c` takes from `_signalingQueueIn`. -/
def polled (c : ClientRef) (s : State ι) : Action ι → List Bytes
  | .client d .pop =>
      if d = c then (s.clients[d]?.bind fun client => client.signalingQueueIn.queue.head?).toList else []
  | _ => []

/-- An answer that the thread of `c` applies. -/
def applied (c : ClientRef) (s : State ι) : Action ι → List Bytes
  | .client d (.apply _) => if d = c then (s.clients[d]?.bind fun client => client.thread.sdp?).toList else []
  | _ => []

/-- An answer with which `setRemoteDescription` returns. -/
def accepts (c : ClientRef) (s : State ι) : Action ι → List Bytes
  | .client d (.apply false) => applied c s (.client d (.apply false))
  | _ => []

/-- A step that does not concern `c` is in none of its histories. -/
theorem unconcerned {s : State ι} {c : ClientRef} {a : Action ι} (h : ¬ Concerns s c a) :
    answered c s a = [] ∧ polled c s a = [] ∧ applied c s a = [] ∧ accepts c s a = [] := by
  have hclient : ∀ {d b}, a = .client d b → d ≠ c := by
    rintro d b rfl rfl
    exact h (.inl ⟨b, rfl⟩)
  refine ⟨?_, ?_, ?_, ?_⟩
  · unfold answered
    split
    · split
      · rename_i d sdp source hpc
        rw [if_neg]
        rintro rfl
        exact h (.inr ⟨rfl, sdp, source, hpc⟩)
      · rfl
    · rfl
  · unfold polled
    split
    · exact if_neg (hclient rfl)
    · rfl
  · unfold applied
    split
    · exact if_neg (hclient rfl)
    · rfl
  · unfold accepts
    split
    · unfold applied
      exact if_neg (hclient rfl)
    · rfl

/-- `~Client` does not move the thread. -/
theorem destroy_thread {k k' : Client} (h : k.destroy = some k') : k'.thread = k.thread := by
  cases destroy_stepped h <;> rfl

/-! ## Every run -/

/-- **The answers for `c`**: passed, taken and accepted. -/
structure Inbox (s : State ι) (c : ClientRef) (passes takes accepted : List Bytes) : Prop where
  unborn : s.clients[c]? = none → passes = [] ∧ takes = [] ∧ accepted = []
  live : ∀ k, s.clients[c]? = some k → k.lifetime = .live →
    k.signalingQueueIn.stopped = false ∧ passes = takes ++ k.signalingQueueIn.queue
  thread : ∀ k, s.clients[c]? = some k → takes = accepted ++ k.thread.sdp?.toList

variable {passes takes accepted : List Bytes}

/-- A client that is there after the step, with what the clauses say of it. -/
theorem Inbox.of_some {s' : State ι} {c : ClientRef} {k' : Client} (hk : s'.clients[c]? = some k')
    (hlive : k'.lifetime = .live →
      k'.signalingQueueIn.stopped = false ∧ passes = takes ++ k'.signalingQueueIn.queue)
    (hthread : takes = accepted ++ k'.thread.sdp?.toList) : Inbox s' c passes takes accepted := by
  constructor
  · intro hnone
    exact absurd (hk.symm.trans hnone) (by simp)
  · intro m hm
    obtain rfl := Option.some.inj (hk.symm.trans hm)
    exact hlive
  · intro m hm
    obtain rfl := Option.some.inj (hk.symm.trans hm)
    exact hthread

theorem Inbox.stepClient {s s' : State ι} {c : ClientRef} {a : ClientAction} {k k' : Client} {f : Option Fault}
    (hi : Inbox s c passes takes accepted) (hk : s.clients[c]? = some k) (hk' : s'.clients[c]? = some k')
    (h : ClientStepped C k a k' f) :
    Inbox s' c (passes ++ answered c s (.client c a)) (takes ++ polled c s (.client c a))
      (accepted ++ accepts c s (.client c a)) := by
  have hlive := hi.live k hk
  have hthread := hi.thread k hk
  cases h with
  | checked hpc =>
      simp only [answered, polled, accepts, List.append_nil]
      rw [hpc] at hthread
      refine .of_some hk' hlive ?_
      rw [hthread]
      by_cases hterm : k.doTerm = true
      · simp [hterm, ClientThread.sdp?]
      · simp [hterm, ClientThread.sdp?]
  | stopped hpc hq =>
      obtain ⟨hempty, -, -, -⟩ := (BlockingQueue.tryPop_cases hq).resolve_right (by simp)
      simp only [answered, polled, accepts, if_true, hk, Option.bind_some, hempty, List.head?_nil,
        Option.toList_none, List.append_nil]
      rw [hpc] at hthread
      exact .of_some hk' hlive hthread
  | @popped sdp q hpc hq =>
      -- the front of the queue is now in the hands of the thread, which had none
      obtain ⟨rest, hqueue, rfl⟩ := BlockingQueue.tryPop_some hq
      simp only [answered, polled, accepts, if_true, hk, Option.bind_some, hqueue, List.head?_cons,
        Option.toList_some, List.append_nil]
      rw [hpc] at hthread
      refine .of_some hk' ?_ ?_
      · intro hl
        obtain ⟨hrun, hpasses⟩ := hlive hl
        refine ⟨hrun, ?_⟩
        rw [hpasses, hqueue, List.append_assoc, List.singleton_append]
      · rw [hthread]
        exact congrArg (· ++ [sdp]) (List.append_nil accepted)
  | @applied sdp hpc =>
      simp only [answered, polled, accepts, Streamer.applied, if_true, hk, Option.bind_some, hpc,
        ClientThread.sdp?, Option.toList_some, List.append_nil]
      rw [hpc] at hthread
      refine .of_some hk' hlive ?_
      rw [hthread]
      exact (List.append_nil _).symm
  | threw _ | stateChanged _ | gatheringStateChanged _ | pushed _ _ _ =>
      simp only [answered, polled, accepts, List.append_nil]
      exact .of_some hk' hlive hthread

/-- A step that does not concern `c` adds nothing to the histories. -/
theorem Inbox.aside {s s' : State ι} {a : Action ι} {c : ClientRef} (hno : ¬ Concerns s c a)
    (hi : Inbox s' c passes takes accepted) :
    Inbox s' c (passes ++ answered c s a) (takes ++ polled c s a) (accepted ++ accepts c s a) := by
  obtain ⟨hanswered, hpolled, -, haccepts⟩ := unconcerned hno
  rw [hanswered, hpolled, haccepts, List.append_nil, List.append_nil, List.append_nil]
  exact hi

theorem Inbox.step {s s' : State ι} {a : Action ι} {c : ClientRef} (hi : Inbox s c passes takes accepted)
    (h : step C s a = some s') :
    Inbox s' c (passes ++ answered c s a) (takes ++ polled c s a) (accepted ++ accepts c s a) := by
  have hchange := client_change h c
  generalize hk : s.clients[c]? = o at hchange
  generalize hk' : s'.clients[c]? = o' at hchange
  cases hchange with
  | moved hc => exact hi.stepClient hk hk' hc
  | @answered sdp source k q hpc hq =>
      simp only [answered, hpc, if_true, polled, accepts, List.append_nil]
      refine .of_some hk' ?_ (hi.thread k hk)
      intro hl
      obtain ⟨hrun, hpasses⟩ := hi.live k hk hl
      rcases BlockingQueue.tryPush_cases hq with ⟨hstopped, rfl⟩ | ⟨-, -, rfl⟩
      · -- the queue of a live client has not been stopped
        exact absurd (hstopped.symm.trans hrun) (by simp)
      · refine ⟨hrun, ?_⟩
        rw [hpasses, List.append_assoc]
  | kept hno =>
      apply Inbox.aside hno
      constructor
      · intro hnone
        exact hi.unborn (hk.trans (hk'.symm.trans hnone))
      · intro k hsome
        exact hi.live k (hk.trans (hk'.symm.trans hsome))
      · intro k hsome
        exact hi.thread k (hk.trans (hk'.symm.trans hsome))
  | constructed hno =>
      apply Inbox.aside hno
      obtain ⟨rfl, rfl, rfl⟩ := hi.unborn hk
      exact .of_some hk' (fun _ => ⟨rfl, rfl⟩) rfl
  | @collected _ k _ _ _ hno _ =>
      apply Inbox.aside hno
      exact .of_some hk' (hi.live k hk) (hi.thread k hk)
  | @released _ k hno =>
      apply Inbox.aside hno
      exact .of_some hk' (fun hl => absurd hl (by simp)) (hi.thread k hk)
  | @destroyed _ k _ hno hd =>
      apply Inbox.aside hno
      refine .of_some hk' (fun hl => absurd hl (destroy_cases hd).2.1) ?_
      rw [destroy_thread hd]
      exact hi.thread k hk

end Streamer

end WebrtcStreamer
