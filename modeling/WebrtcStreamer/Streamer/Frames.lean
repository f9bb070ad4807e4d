import Mathlib.Data.List.Perm.Basic
import WebrtcStreamer.Lib.JsonText
import WebrtcStreamer.Streamer.Lifetimes

/-!
# `Streamer.Frames` — from `pushData` to the clients

A frame is stamped and queued under `_publicApiMutex`, popped by the multimedia thread, and handed to every
client that the registry holds during the traversal. The histories of a run say what happened at each
stage: the calls of `pushData`, the buffers in the order in which they got the mutex, the readings of the
clock, the frames queued, the traversals with the registry they went through, and the frames handed to a
client.

`FanOut` relates each history to the next, with what is under way between the two. `frames_fan_out` is its
consequence for one client: a contiguous run of the queued frames, which are the calls' own buffers.
-/

namespace WebrtcStreamer

namespace Streamer

open Transition

variable {ι : Type}

/-! ## Histories -/

/-- The buffer of a call of `pushData`. -/
def called (_ : State ι) : Action ι → List (Option Bytes)
  | .pushData (.call buffer) => [buffer]
  | _ => []

/-- The buffer of the call that gets `_publicApiMutex`. -/
def entered (s : State ι) : Action ι → List (Option Bytes)
  | .pushData (.lock caller) => s.callers[caller]?.toList
  | _ => []

/-- A buffer that is not empty, as `_pushData` finds it, with the reading of the clock. -/
def stamped (s : State ι) : Action ι → List (Bytes × Timeval)
  | .pushData (.stamp time) =>
      match s.publicApi with
      | some (.entered (some (byte :: bytes))) => [(byte :: bytes, time)]
      | _ => []
  | _ => []

/-- A frame that `_framesQueueIn` accepts. -/
def accepted (s : State ι) : Action ι → List Frame
  | .pushData .push =>
      match s.publicApi with
      | some (.pushing frame) => if s.framesQueueIn.stopped then [] else [frame]
      | _ => []
  | _ => []

/-- A frame whose traversal begins, with the registry that is traversed. -/
def traversed (s : State ι) : Action ι → List (Frame × ClientsMap)
  | .multimedia (.lock _) =>
      match s.multimedia with
      | .locking frame => [(frame, s.clientsMap)]
      | _ => []
  | _ => []

/-- A frame with which `sendFrame` is called on `c`. -/
def handed (c : ClientRef) (s : State ι) : Action ι → List Frame
  | .multimedia .enter =>
      match s.multimedia with
      | .walking frame (e :: _) => if e.2 = c then [frame] else []
      | _ => []
  | _ => []

/-! ## What is under way -/

/-- The frame of a stamped buffer. -/
def Frame.of (stamp : Bytes × Timeval) : Frame where
  data := stamp.1
  sampleTime := stamp.2.sampleTime

/-- A buffer that `_pushData` does not ignore. -/
def nonEmpty : Option Bytes → Option Bytes
  | some (byte :: bytes) => some (byte :: bytes)
  | _ => none

/-- The buffer that is to be stamped. -/
def State.unstamped (s : State ι) : List Bytes :=
  match s.publicApi with
  | some (.entered buffer) => (nonEmpty buffer).toList
  | _ => []

/-- The frame that is to be queued. -/
def State.unqueued (s : State ι) : List Frame :=
  match s.publicApi with
  | some (.pushing frame) => [frame]
  | _ => []

/-- The frame that is to be taken round. -/
def State.untraversed (s : State ι) : List Frame :=
  match s.multimedia with
  | .locking frame => [frame]
  | _ => []

/-- The frame that `c` is to be handed in the traversal under way. -/
def State.due (s : State ι) (c : ClientRef) : List Frame :=
  match s.multimedia with
  | .walking frame rest | .sending frame _ rest => if c ∈ rest.map Sigma.snd then [frame] else []
  | _ => []

/-! ## From the calls to the traversals -/

/-- **The way of the frames.** Each history is the one before it, less what is under way. -/
structure FanOut (s : State ι) (calls enters : List (Option Bytes)) (stamps : List (Bytes × Timeval))
    (frames : List Frame) (traversals : List (Frame × ClientsMap)) : Prop where
  entering : calls.Perm (enters ++ s.callers)
  stamping : enters.filterMap nonEmpty = stamps.map Prod.fst ++ s.unstamped
  queueing : s.doTerm = false → stamps.map Frame.of = frames ++ s.unqueued
  traversing : frames = traversals.map Prod.fst ++ s.untraversed ++ s.framesQueueIn.queue
  stopping : s.framesQueueIn.stopped = true → s.doTerm = true
  terminating : s.destructor ≠ .idle → s.doTerm = true

theorem fanOut_init : FanOut (init ι) [] [] [] [] [] where
  entering := List.Perm.refl _
  stamping := rfl
  queueing := fun _ => rfl
  traversing := rfl
  stopping := fun h => absurd h (by simp [init, BlockingQueue.new])
  terminating := fun h => absurd rfl h

variable {C : Codec} {calls enters : List (Option Bytes)} {stamps : List (Bytes × Timeval)}
  {frames : List Frame} {traversals : List (Frame × ClientsMap)}

/-- The fields that the way of the frames goes through. -/
structure SameFrames (s s' : State ι) : Prop where
  callers : s'.callers = s.callers
  publicApi : s'.publicApi = s.publicApi
  multimedia : s'.multimedia = s.multimedia
  framesQueueIn : s'.framesQueueIn = s.framesQueueIn
  doTerm : s'.doTerm = s.doTerm
  destructor : s'.destructor = s.destructor

theorem sameFrames_onMessage {s s' : State ι} {a : OnMessageAction ι} (h : OnMessageStepped C s a s') :
    SameFrames s s' := by
  cases h <;> exact ⟨rfl, rfl, rfl, rfl, rfl, rfl⟩

theorem sameFrames_collector {s s' : State ι} {a : CollectorAction} (h : CollectorStepped s a s') :
    SameFrames s s' := by
  cases h <;> exact ⟨rfl, rfl, rfl, rfl, rfl, rfl⟩

theorem sameFrames_loop {s s' : State ι} {a : LoopAction} (h : LoopStepped C s a s') : SameFrames s s' := by
  cases h with
  | @popped item q verdict _ _ _ => cases verdict <;> exact ⟨rfl, rfl, rfl, rfl, rfl, rfl⟩
  | checked _ | stopped _ | threw _ _ _ | emplaced _ _ _ | discarded _ _ _ _ | absent _ _ _ | erased _ _ _ _
  | destroyed _ _ _ | answered _ _ _ | sent _ | sendThrew _ | joined _ _ => exact ⟨rfl, rfl, rfl, rfl, rfl, rfl⟩

theorem FanOut.same {s s' : State ι} (hf : FanOut s calls enters stamps frames traversals)
    (h : SameFrames s s') : FanOut s' calls enters stamps frames traversals where
  entering := by rw [h.callers]; exact hf.entering
  stamping := by unfold State.unstamped; rw [h.publicApi]; exact hf.stamping
  queueing := by unfold State.unqueued; rw [h.doTerm, h.publicApi]; exact hf.queueing
  traversing := by unfold State.untraversed; rw [h.multimedia, h.framesQueueIn]; exact hf.traversing
  stopping := by rw [h.framesQueueIn, h.doTerm]; exact hf.stopping
  terminating := by rw [h.destructor, h.doTerm]; exact hf.terminating

/-- What a step of `pushData` adds to the histories. -/
theorem FanOut.stepPushData {s s' : State ι} {a : PushDataAction}
    (hf : FanOut s calls enters stamps frames traversals) (h : PushDataStepped s a s') :
    FanOut s' (calls ++ called s (.pushData a)) (enters ++ entered s (.pushData a))
      (stamps ++ stamped s (.pushData a)) (frames ++ accepted s (.pushData a)) traversals := by
  cases h with
  | @called buffer =>
      simp only [Streamer.called, entered, stamped, accepted, List.append_nil]
      refine { hf with entering := ?_ }
      show (calls ++ [buffer]).Perm (enters ++ (s.callers ++ [buffer]))
      rw [← List.append_assoc]
      exact hf.entering.append_right _
  | @locked caller buffer hpc hc =>
      -- one of the waiting calls, not necessarily the first
      simp only [Streamer.called, entered, stamped, accepted, List.append_nil, hc, Option.toList_some]
      have hun : s.unstamped = [] := by rw [State.unstamped, hpc]
      have huq : s.unqueued = [] := by rw [State.unqueued, hpc]
      refine { hf with entering := ?_, stamping := ?_, queueing := ?_ }
      · obtain ⟨hlt, hget⟩ := List.getElem?_eq_some_iff.mp hc
        have hperm := List.getElem_cons_eraseIdx_perm hlt
        rw [hget] at hperm
        show calls.Perm (enters ++ [buffer] ++ s.callers.eraseIdx caller)
        rw [List.append_assoc, List.singleton_append]
        exact hf.entering.trans (hperm.symm.append_left enters)
      · show (enters ++ [buffer]).filterMap nonEmpty = stamps.map Prod.fst ++ (nonEmpty buffer).toList
        rw [List.filterMap_append, hf.stamping, hun, List.append_nil]
        cases hb : nonEmpty buffer <;> simp [hb]
      · intro hrun
        rw [hf.queueing hrun, huq]
        rfl
  | @ignored time buffer hpc hb =>
      have hne : nonEmpty buffer = none := by rcases hb with rfl | rfl <;> rfl
      have hst : stamped s (.pushData (.stamp time)) = [] := by
        rcases hb with rfl | rfl <;> simp only [stamped, hpc]
      simp only [Streamer.called, entered, hst, accepted, List.append_nil]
      have hun : s.unstamped = [] := by simp only [State.unstamped, hpc, hne, Option.toList_none]
      have huq : s.unqueued = [] := by rw [State.unqueued, hpc]
      refine { hf with stamping := ?_, queueing := ?_ }
      · rw [hf.stamping, hun]
        rfl
      · intro hrun
        rw [hf.queueing hrun, huq]
        rfl
  | @stamped time data hpc hne =>
      obtain ⟨byte, bytes, rfl⟩ := List.exists_cons_of_ne_nil hne
      have hst : stamped s (.pushData (.stamp time)) = [(byte :: bytes, time)] := by
        simp only [Streamer.stamped, hpc]
      simp only [Streamer.called, entered, hst, accepted, List.append_nil]
      have hun : s.unstamped = [byte :: bytes] := by rw [State.unstamped, hpc]; rfl
      have huq : s.unqueued = [] := by rw [State.unqueued, hpc]
      refine { hf with stamping := ?_, queueing := ?_ }
      · rw [hf.stamping, hun, List.map_append]
        show _ = stamps.map Prod.fst ++ [byte :: bytes] ++ []
        rw [List.append_nil]
      · intro hrun
        rw [List.map_append, hf.queueing hrun, huq, List.append_nil]
        rfl
  | @pushed frame q hpc hq =>
      have hac : accepted s (.pushData .push) = if s.framesQueueIn.stopped then [] else [frame] := by
        simp only [accepted, hpc]
      simp only [Streamer.called, entered, Streamer.stamped, hac, List.append_nil]
      have hun : s.unstamped = [] := by rw [State.unstamped, hpc]
      have huq : s.unqueued = [frame] := by rw [State.unqueued, hpc]
      rcases BlockingQueue.tryPush_cases hq with ⟨hstop, rfl⟩ | ⟨hrun, -, rfl⟩
      · -- a stopped queue drops the frame: only while shutting down
        have hterm := hf.stopping hstop
        rw [hstop, if_pos rfl, List.append_nil]
        refine { hf with stamping := ?_, queueing := ?_ }
        · rw [hf.stamping, hun]
          rfl
        · intro hno
          exact absurd (hterm.symm.trans hno) (by simp)
      · rw [hrun, if_neg (by simp)]
        refine { hf with stamping := ?_, queueing := ?_, traversing := ?_, stopping := ?_ }
        · rw [hf.stamping, hun]
          rfl
        · intro hno
          rw [hf.queueing hno, huq]
          show _ = frames ++ [frame] ++ []
          rw [List.append_nil]
        · show frames ++ [frame] =
            traversals.map Prod.fst ++ s.untraversed ++ (s.framesQueueIn.queue ++ [frame])
          rw [← List.append_assoc, ← hf.traversing]
        · intro hstop
          exact absurd hstop (by simp)

/-- What a step of the multimedia thread adds to the histories. -/
theorem FanOut.stepMultimedia {s s' : State ι} {a : MultimediaAction}
    (hf : FanOut s calls enters stamps frames traversals) (h : MultimediaStepped s a s') :
    FanOut s' calls enters stamps frames (traversals ++ traversed s (.multimedia a)) := by
  cases h with
  | checked hpc =>
      have hun : s.untraversed = [] := by rw [State.untraversed, hpc]
      simp only [traversed, List.append_nil]
      refine { hf with traversing := ?_ }
      rw [hf.traversing, hun]
      unfold State.untraversed
      show _ = traversals.map Prod.fst ++ (match (if s.doTerm then Multimedia.done else .polling) with
        | .locking frame => [frame]
        | _ => []) ++ s.framesQueueIn.queue
      split
      · rename_i heq
        split at heq <;> exact absurd heq (by simp)
      · rfl
  | stopped hpc | entered hpc | left hpc | unlocked hpc =>
      have hun : s.untraversed = [] := by rw [State.untraversed, hpc]
      simp only [traversed, List.append_nil]
      refine { hf with traversing := ?_ }
      rw [hf.traversing, hun]
      rfl
  | threw hpc =>
      simp only [traversed, List.append_nil]
      exact { hf with }
  | @popped frame q hpc hq =>
      have hun : s.untraversed = [] := by rw [State.untraversed, hpc]
      obtain ⟨rest, hqueue, rfl⟩ := BlockingQueue.tryPop_some hq
      simp only [traversed, List.append_nil]
      refine { hf with traversing := ?_, stopping := fun h => hf.stopping h }
      rw [hf.traversing, hun, hqueue, List.append_nil]
      show _ = traversals.map Prod.fst ++ [frame] ++ rest
      rw [List.append_assoc, List.singleton_append]
  | @locked frame order hpc hfree hperm =>
      -- the frame's traversal begins here
      have hun : s.untraversed = [frame] := by rw [State.untraversed, hpc]
      simp only [traversed, hpc]
      refine { hf with traversing := ?_ }
      rw [hf.traversing, hun, List.map_append]
      show _ = traversals.map Prod.fst ++ [frame] ++ [] ++ s.framesQueueIn.queue
      rw [List.append_nil]

theorem FanOut.stepDestructor {s s' : State ι} (hf : FanOut s calls enters stamps frames traversals)
    (h : DestructorStepped s s') : FanOut s' calls enters stamps frames traversals := by
  cases h with
  | started _ =>
      exact { hf with
        queueing := fun h => absurd h (by simp)
        stopping := fun _ => rfl
        terminating := fun _ => rfl }
  | signalingStopped hpc | webSocketClosed hpc | signalingJoined hpc _ | multimediaJoined hpc _ | finished hpc
  | released hpc _ _ | destroyed hpc _ _ =>
      exact { hf with terminating := fun _ => hf.terminating (by rw [hpc]; simp) }
  | framesStopped hpc =>
      have hterm : s.doTerm = true := hf.terminating (by rw [hpc]; simp)
      exact { hf with traversing := hf.traversing, stopping := fun _ => hterm, terminating := fun _ => hterm }

theorem FanOut.step {s s' : State ι} {a : Action ι} (hf : FanOut s calls enters stamps frames traversals)
    (h : step C s a = some s') :
    FanOut s' (calls ++ called s a) (enters ++ entered s a) (stamps ++ stamped s a) (frames ++ accepted s a)
      (traversals ++ traversed s a) := by
  cases (step_cases h).2 with
  | onMessage h =>
      simp only [called, entered, stamped, accepted, traversed, List.append_nil]
      exact hf.same (sameFrames_onMessage h)
  | collector h =>
      simp only [called, entered, stamped, accepted, traversed, List.append_nil]
      exact hf.same (sameFrames_collector h)
  | loop h =>
      simp only [called, entered, stamped, accepted, traversed, List.append_nil]
      exact hf.same (sameFrames_loop h)
  | multimedia h =>
      have hm := hf.stepMultimedia (stepMultimedia_cases h)
      simpa only [called, entered, stamped, accepted, List.append_nil] using hm
  | pushData h =>
      have hp := hf.stepPushData (stepPushData_cases h)
      simpa only [traversed, List.append_nil] using hp
  | client _ _ =>
      simp only [called, entered, stamped, accepted, traversed, List.append_nil]
      exact { hf with }
  | destructor h =>
      simp only [called, entered, stamped, accepted, traversed, List.append_nil]
      exact hf.stepDestructor h

/-! ## From the traversals to one client -/

/-- The traversals of a client: none while it is fresh, all of the last ones while it is registered, a
    contiguous part of them ever after. -/
structure Span (s : State ι) (c : ClientRef) (traversals : List (Frame × ClientsMap)) : Prop where
  fresh : Fresh s c → ∀ t ∈ traversals, ¬ Visits c t.2
  current : Visits c s.clientsMap → ∃ before during, traversals = before ++ during ∧
    (∀ t ∈ before, ¬ Visits c t.2) ∧ ∀ t ∈ during, Visits c t.2
  past : ∃ before during after, traversals = before ++ during ++ after ∧
    (∀ t ∈ before, ¬ Visits c t.2) ∧ (∀ t ∈ during, Visits c t.2) ∧ ∀ t ∈ after, ¬ Visits c t.2

theorem span_init (c : ClientRef) : Span (init ι) c [] where
  fresh := by intro _ t ht; exact absurd ht (by simp)
  current := fun _ => ⟨[], [], rfl, by simp, by simp⟩
  past := ⟨[], [], [], rfl, by simp, by simp, by simp⟩

/-- A step in which no traversal begins. -/
theorem Span.keep {s s' : State ι} {a : Action ι} {c : ClientRef} (hsp : Span s c traversals)
    (h : step C s a = some s') : Span s' c traversals where
  fresh := fun hf => hsp.fresh ((registry_step h c).2 hf)
  current := by
    intro hv
    rcases (registry_step h c).1 hv with hv | hf
    · exact hsp.current hv
    · exact ⟨traversals, [], (List.append_nil _).symm, hsp.fresh hf, by simp⟩
  past := hsp.past

/-- A traversal of the registry as it is. -/
theorem Span.extend {s : State ι} (hs : Sane s) {c : ClientRef} (hsp : Span s c traversals) (frame : Frame) :
    Span s c (traversals ++ [(frame, s.clientsMap)]) := by
  by_cases hv : Visits c s.clientsMap
  · -- registered: the part of `c` grows
    obtain ⟨before, during, rfl, hb, hd⟩ := hsp.current hv
    have hd' : ∀ t ∈ during ++ [(frame, s.clientsMap)], Visits c t.2 := by
      intro t ht
      rcases List.mem_append.mp ht with ht | ht
      · exact hd t ht
      · rw [List.mem_singleton.mp ht]
        exact hv
    refine ⟨fun hf => absurd hv (hs.not_visits_of_fresh hf), fun _ => ?_, ?_⟩
    · exact ⟨before, during ++ [(frame, s.clientsMap)], List.append_assoc _ _ _, hb, hd'⟩
    · exact ⟨before, during ++ [(frame, s.clientsMap)], [], by simp, hb, hd', by simp⟩
  · -- not registered: what comes after it does
    have hnew : ∀ ts : List (Frame × ClientsMap), (∀ t ∈ ts, ¬ Visits c t.2) →
        ∀ t ∈ ts ++ [(frame, s.clientsMap)], ¬ Visits c t.2 := by
      intro ts hts t ht
      rcases List.mem_append.mp ht with ht | ht
      · exact hts t ht
      · rw [List.mem_singleton.mp ht]
        exact hv
    obtain ⟨before, during, after, rfl, hb, hd, ha⟩ := hsp.past
    refine ⟨fun hf => hnew _ (hsp.fresh hf), fun hv' => absurd hv' hv, ?_⟩
    exact ⟨before, during, after ++ [(frame, s.clientsMap)], List.append_assoc _ _ _, hb, hd, hnew after ha⟩

theorem Span.step {s s' : State ι} {a : Action ι} {c : ClientRef} (hs : Sane s)
    (hsp : Span s c traversals) (h : step C s a = some s') : Span s' c (traversals ++ traversed s a) := by
  cases ht : traversed s a with
  | nil =>
      rw [List.append_nil]
      exact hsp.keep h
  | cons t ts =>
      -- the step begins a traversal of the registry of `s`
      have hone : ∃ frame, t :: ts = [(frame, s.clientsMap)] := by
        rw [← ht]
        unfold traversed at ht ⊢
        split at ht
        · split at ht
          · rename_i frame _
            exact ⟨frame, rfl⟩
          · exact absurd ht (by simp)
        · exact absurd ht (by simp)
      obtain ⟨frame, hone⟩ := hone
      rw [hone]
      exact (hsp.extend hs frame).keep h

/-! ## Rounds -/

/-- **What `c` has been handed**: the frame of every traversal of a registry with `c` in it, once. -/
structure Rounds (s : State ι) (c : ClientRef) (traversals : List (Frame × ClientsMap)) (hands : List Frame) :
    Prop where
  once : ∀ rest, s.multimedia.rest = some rest → (rest.map Sigma.snd).Nodup
  handing : hands ++ s.due c = (traversals.filter fun t => Visits c t.2).map Prod.fst

theorem rounds_init (c : ClientRef) : Rounds (init ι) c [] [] where
  once := by intro rest h; exact absurd h (by simp [init, Multimedia.rest])
  handing := rfl

theorem Rounds.same {s s' : State ι} {c : ClientRef} {hands : List Frame}
    (hr : Rounds s c traversals hands) (h : s'.multimedia = s.multimedia) : Rounds s' c traversals hands where
  once := by rw [h]; exact hr.once
  handing := by unfold State.due; rw [h]; exact hr.handing

theorem Rounds.stepMultimedia {s s' : State ι} {a : MultimediaAction} {c : ClientRef} {hands : List Frame}
    (hs : Sane s) (hr : Rounds s c traversals hands) (h : MultimediaStepped s a s') :
    Rounds s' c (traversals ++ traversed s (.multimedia a)) (hands ++ handed c s (.multimedia a)) := by
  cases h with
  | checked hpc =>
      have hdue : s.due c = [] := by rw [State.due, hpc]
      simp only [traversed, handed, List.append_nil]
      refine ⟨fun rest h => ?_, ?_⟩
      · change (if s.doTerm then Multimedia.done else .polling).rest = _ at h
        split at h <;> exact absurd h (by simp [Multimedia.rest])
      · rw [← hr.handing, hdue]
        unfold State.due
        show hands ++ (match (if s.doTerm then Multimedia.done else .polling) with
          | .walking frame rest | .sending frame _ rest => if c ∈ rest.map Sigma.snd then [frame] else []
          | _ => []) = _
        split
        · rename_i heq
          split at heq <;> exact absurd heq (by simp)
        · rename_i heq
          split at heq <;> exact absurd heq (by simp)
        · rfl
  | stopped hpc | popped hpc _ =>
      have hdue : s.due c = [] := by rw [State.due, hpc]
      simp only [traversed, handed, List.append_nil]
      refine ⟨fun rest h => absurd h (by simp [Multimedia.rest]), ?_⟩
      rw [← hr.handing, hdue]
      rfl
  | unlocked hpc =>
      have hdue : s.due c = [] := by rw [State.due, hpc]; simp
      simp only [traversed, handed, List.append_nil]
      refine ⟨fun rest h => absurd h (by simp [Multimedia.rest]), ?_⟩
      rw [← hr.handing, hdue]
      rfl
  | @locked frame order hpc hfree hperm =>
      -- the traversal owes its frame to those in the registry
      have hdue : s.due c = [] := by rw [State.due, hpc]
      have hvisits : c ∈ order.map Sigma.snd ↔ Visits c s.clientsMap := (hperm.map Sigma.snd).mem_iff
      simp only [traversed, handed, hpc, List.append_nil]
      refine ⟨fun rest h => ?_, ?_⟩
      · obtain rfl := Option.some.inj h
        exact (hperm.map Sigma.snd).nodup_iff.mpr hs.nodup_clients
      · have hhands := hr.handing
        rw [hdue, List.append_nil] at hhands
        rw [List.filter_append, List.map_append, ← hhands]
        show hands ++ (if c ∈ order.map Sigma.snd then [frame] else []) = _
        by_cases hv : Visits c s.clientsMap
        · rw [if_pos (hvisits.mpr hv)]
          simp [hv]
        · rw [if_neg (fun h => hv (hvisits.mp h))]
          simp [hv]
  | @entered frame e rest hpc =>
      have honce : ((e :: rest).map Sigma.snd).Nodup := hr.once (e :: rest) (by rw [hpc]; rfl)
      rw [List.map_cons, List.nodup_cons] at honce
      have hdue : s.due c = if c ∈ (e :: rest).map Sigma.snd then [frame] else [] := by rw [State.due, hpc]
      simp only [traversed, handed, hpc, List.append_nil]
      refine ⟨fun rest' h => hr.once rest' (by rw [hpc]; exact h), ?_⟩
      rw [← hr.handing, hdue, List.append_assoc]
      congr 1
      show (if e.2 = c then [frame] else []) ++ (if c ∈ rest.map Sigma.snd then [frame] else []) = _
      by_cases he : e.2 = c
      · -- it is handed to `c`, which does not come again
        subst he
        rw [if_pos rfl, if_neg honce.1, if_pos (by simp)]
        rfl
      · rw [if_neg he, List.nil_append, List.map_cons]
        congr 1
        rw [List.mem_cons, eq_iff_iff, or_iff_right (Ne.symm he)]
  | @left frame e rest hpc =>
      have honce : ((e :: rest).map Sigma.snd).Nodup := hr.once (e :: rest) (by rw [hpc]; rfl)
      have hdue : s.due c = if c ∈ rest.map Sigma.snd then [frame] else [] := by rw [State.due, hpc]
      simp only [traversed, handed, List.append_nil]
      refine ⟨fun rest' h => ?_, ?_⟩
      · obtain rfl := Option.some.inj h
        exact (List.nodup_cons.mp honce).2
      · rw [← hr.handing, hdue]
        rfl
  | threw _ =>
      simp only [traversed, handed, List.append_nil]
      exact hr.same rfl

theorem Rounds.step {s s' : State ι} {a : Action ι} {c : ClientRef} {hands : List Frame} (hs : Sane s)
    (hr : Rounds s c traversals hands) (h : step C s a = some s') :
    Rounds s' c (traversals ++ traversed s a) (hands ++ handed c s a) := by
  cases (step_cases h).2 with
  | multimedia h => exact hr.stepMultimedia hs (stepMultimedia_cases h)
  | onMessage h =>
      simp only [traversed, handed, List.append_nil]
      exact hr.same (sameFrames_onMessage h).multimedia
  | collector h =>
      simp only [traversed, handed, List.append_nil]
      exact hr.same (sameFrames_collector h).multimedia
  | loop h =>
      simp only [traversed, handed, List.append_nil]
      exact hr.same (sameFrames_loop h).multimedia
  | pushData h =>
      obtain ⟨cs, p, q, rfl⟩ := stepPushData_frame h
      simp only [traversed, handed, List.append_nil]
      exact hr.same rfl
  | client _ _ =>
      simp only [traversed, handed, List.append_nil]
      exact hr.same rfl
  | destructor h =>
      simp only [traversed, handed, List.append_nil]
      exact hr.same (by cases h <;> rfl)

/-- In terms of the part of the traversals that is `c`'s. -/
theorem Rounds.during {s : State ι} {c : ClientRef} {before during after : List (Frame × ClientsMap)}
    {hands : List Frame} (hr : Rounds s c (before ++ during ++ after) hands)
    (hb : ∀ t ∈ before, ¬ Visits c t.2) (hd : ∀ t ∈ during, Visits c t.2)
    (ha : ∀ t ∈ after, ¬ Visits c t.2) : hands ++ s.due c = during.map Prod.fst := by
  have hb' : before.filter (fun t => Visits c t.2) = [] :=
    List.filter_eq_nil_iff.mpr fun t ht => by simp [hb t ht]
  have hd' : during.filter (fun t => Visits c t.2) = during :=
    List.filter_eq_self.mpr fun t ht => by simp [hd t ht]
  have ha' : after.filter (fun t => Visits c t.2) = [] :=
    List.filter_eq_nil_iff.mpr fun t ht => by simp [ha t ht]
  rw [hr.handing, List.filter_append, List.filter_append, hb', hd', ha', List.nil_append, List.append_nil]

/-! ## After the end of a client -/

/-- A client that is visited is registered. -/
theorem Sane.sending_registered {s : State ι} (hs : Sane s) {frame : Frame} {e : Entry} {rest : List Entry}
    (hpc : s.multimedia = .walking frame (e :: rest) ∨ s.multimedia = .sending frame e rest) :
    s.clientsMap.lookup e.1 = some e.2 := by
  refine hs.traversing (e :: rest) ?_ e List.mem_cons_self
  rcases hpc with hpc | hpc <;> rw [hpc] <;> rfl

/-- From then on it is handed nothing. -/
theorem not_handed_of_ending {c : ClientRef} :
    ∀ (as : List (Action ι)) (s t : State ι), Sane s → Ending s.clients c → exec (step C) s as = some t →
      trace (step C) (handed c) s as = [] := by
  intro as
  induction as with
  | nil => intro s t _ _ _; rfl
  | cons a as ih =>
      intro s t hs he h
      obtain ⟨s', hst, hrest⟩ := exec_cons_some.mp h
      have hnone : handed c s a = [] := by
        unfold handed
        split
        · split
          · rename_i e _ hpc
            rw [if_neg]
            rintro rfl
            exact (hs.registered _ _ (hs.sending_registered (.inl hpc))).not_ending he
          · rfl
        · rfl
      rw [trace_cons hst, hnone, List.nil_append]
      exact ih s' t (sane_step hs hst) (ending_step hst he) hrest

/-! ## Sample times -/

instance : LE Timeval := ⟨fun a b => a.tvSec < b.tvSec ∨ a.tvSec = b.tvSec ∧ a.tvUsec ≤ b.tvUsec⟩

theorem Timeval.le_def {a b : Timeval} :
    a ≤ b ↔ a.tvSec < b.tvSec ∨ a.tvSec = b.tvSec ∧ a.tvUsec ≤ b.tvUsec := Iff.rfl

/-- The sample time does not wrap. -/
theorem Timeval.sampleTime_toNat (a : Timeval) : a.sampleTime.toNat = a.tvSec * 1000000 + a.tvUsec := by
  have hsec := a.tvSec_le
  have husec := a.tvUsec_lt
  unfold Timeval.sampleTime
  rw [UInt64.toNat_add, UInt64.toNat_mul, UInt64.toNat_mul, UInt64.toNat_ofNat', UInt64.toNat_ofNat']
  show (a.tvSec % 2 ^ 64 * 1000 % 2 ^ 64 * 1000 % 2 ^ 64 + a.tvUsec % 2 ^ 64) % 2 ^ 64 = _
  omega

/-- Later readings give later sample times. -/
theorem Timeval.sampleTime_mono {a b : Timeval} (h : a ≤ b) : a.sampleTime ≤ b.sampleTime := by
  have ha := a.tvUsec_lt
  rw [UInt64.le_iff_toNat_le, a.sampleTime_toNat, b.sampleTime_toNat]
  rcases Timeval.le_def.mp h with hlt | ⟨heq, hle⟩ <;> omega

/-- Frames taken from those stamped, in the same order, have their sample times in order. -/
theorem sampleTimes_sorted {frames : List Frame} {stamps : List (Bytes × Timeval)}
    (hsub : frames.Sublist (stamps.map Frame.of)) (hclock : (stamps.map Prod.snd).Pairwise (· ≤ ·)) :
    (frames.map Frame.sampleTime).Pairwise (· ≤ ·) := by
  refine List.Pairwise.sublist (hsub.map Frame.sampleTime) ?_
  rw [List.map_map, List.pairwise_map]
  rw [List.pairwise_map] at hclock
  exact hclock.imp fun hle => Timeval.sampleTime_mono hle

/-! ## Every run -/

/-- The invariants, along a run. -/
theorem exec_rounds (c : ClientRef) (as : List (Action ι)) (s : State ι)
    (h : exec (step C) (init ι) as = some s) :
    Sane s ∧
      FanOut s (shown C called as) (shown C entered as) (shown C stamped as) (shown C accepted as)
        (shown C traversed as) ∧
      Span s c (shown C traversed as) ∧ Rounds s c (shown C traversed as) (shown C (handed c) as) := by
  refine exec_induction (motive := fun as s => Sane s ∧
    FanOut s (shown C called as) (shown C entered as) (shown C stamped as) (shown C accepted as)
      (shown C traversed as) ∧
    Span s c (shown C traversed as) ∧ Rounds s c (shown C traversed as) (shown C (handed c) as))
    ⟨sane_init, fanOut_init, span_init c, rounds_init c⟩ ?_ as s h
  rintro as s a s' has ⟨hs, hf, hsp, hr⟩ hst
  simp only [shown, trace_snoc has]
  exact ⟨sane_step hs hst, hf.step hst, hsp.step hs hst, hr.step hs hst⟩

/-- **Frames and clients.** In every run of a streamer that has not begun to shut down, for every client:
    the calls enter in some order, and what has been queued are the frames of their buffers in that order;
    the client has been handed the frames of the traversals whose registry it was in, which are a contiguous
    run of all the traversals; these frames are a contiguous run of the queued ones, their sample times in
    order if the clock's readings were; while it is being handed a frame it is registered, and once its
    destruction has begun it is handed none. -/
theorem frames_fan_out {as : List (Action ι)} {s : State ι} (h : exec (step C) (init ι) as = some s)
    (hrun : s.doTerm = false) (c : ClientRef) :
    ((shown C called as).Perm (shown C entered as ++ s.callers) ∧
      (shown C entered as).filterMap nonEmpty = (shown C stamped as).map Prod.fst ++ s.unstamped ∧
      (shown C stamped as).map Frame.of = shown C accepted as ++ s.unqueued) ∧
    (∃ before during after, shown C traversed as = before ++ during ++ after ∧
      (∀ t ∈ before ++ after, ¬ Visits c t.2) ∧ (∀ t ∈ during, Visits c t.2) ∧
      shown C (handed c) as ++ s.due c = during.map Prod.fst) ∧
    shown C accepted as =
      (shown C traversed as).map Prod.fst ++ s.untraversed ++ s.framesQueueIn.queue ∧
    (∃ before after, shown C accepted as = before ++ shown C (handed c) as ++ after) ∧
    (((shown C stamped as).map Prod.snd).Pairwise (· ≤ ·) →
      ((shown C (handed c) as).map Frame.sampleTime).Pairwise (· ≤ ·)) ∧
    (∀ frame id rest, s.multimedia = .sending frame ⟨id, c⟩ rest → s.clientsMap.lookup id = some c) ∧
    ∀ pre post s₁, as = pre ++ post → exec (step C) (init ι) pre = some s₁ → Ending s₁.clients c →
      trace (step C) (handed c) s₁ post = [] ∧
        ∀ frame id rest, s₁.multimedia ≠ .sending frame ⟨id, c⟩ rest := by
  obtain ⟨hs, hf, hsp, hr⟩ := exec_rounds c as s h
  have hqueued := hf.queueing hrun
  obtain ⟨before, during, after, htr, hb, hd, ha⟩ := hsp.past
  have hhanded : shown C (handed c) as ++ s.due c = during.map Prod.fst :=
    Rounds.during (htr ▸ hr) hb hd ha
  have hrun' : shown C accepted as = before.map Prod.fst ++ shown C (handed c) as ++
      (s.due c ++ after.map Prod.fst ++ s.untraversed ++ s.framesQueueIn.queue) := by
    rw [hf.traversing, htr, List.map_append, List.map_append, ← hhanded]
    simp only [List.append_assoc]
  refine ⟨⟨hf.entering, hf.stamping, hqueued⟩, ⟨before, during, after, htr, ?_, hd, hhanded⟩, hf.traversing,
    ⟨_, _, hrun'⟩, ?_, ?_, ?_⟩
  · intro t ht
    rcases List.mem_append.mp ht with ht | ht
    · exact hb t ht
    · exact ha t ht
  · intro hclock
    -- the frames handed are among those stamped, in the same order
    have hsub : (shown C (handed c) as).Sublist ((shown C stamped as).map Frame.of) := by
      rw [hqueued, hrun']
      exact ((List.sublist_append_right _ _).trans (List.sublist_append_left _ _)).trans
        (List.sublist_append_left _ _)
    exact sampleTimes_sorted hsub hclock
  · intro frame id rest hpc
    exact hs.sending_registered (.inr hpc)
  · rintro pre post s₁ rfl hpre he
    have hs₁ := exec_sane hpre
    obtain ⟨s₁', hpre', hpost⟩ := exec_append_some.mp h
    obtain rfl := Option.some.inj (hpre.symm.trans hpre')
    refine ⟨not_handed_of_ending post s₁ s hs₁ he hpost, fun frame id rest hpc => ?_⟩
    exact (hs₁.registered _ _ (hs₁.sending_registered (.inr hpc))).not_ending he

/-- A client registers under `b` between two frames and is handed the second one. -/
def joinBetweenFrames : List (Action Unit) :=
  [.pushData (.call (some (str "1"))), .pushData (.call (some (str "2"))),
    .pushData (.lock 1), .pushData (.stamp ⟨1, 0, by decide, by decide⟩), .pushData .push,
    .multimedia .check, .multimedia .pop, .multimedia (.lock []), .multimedia .unlock,
    .onMessage (.receive () (.text (str "\x7b\"id\":\"b\",\"type\":\"request\"\x7d"))), .onMessage .push,
    .loop .check, .loop .pop, .loop .emplace,
    .pushData (.lock 0), .pushData (.stamp ⟨1, 40000, by decide, by decide⟩), .pushData .push,
    .multimedia .check, .multimedia .pop, .multimedia (.lock [⟨str "b", 0⟩]), .multimedia .enter,
    .multimedia (.leave false), .multimedia .unlock]

theorem frames_fan_out_join :
    shown JsonText.text (handed 0) joinBetweenFrames = [{ data := str "1", sampleTime := 1040000 }] ∧
      ∃ before after, shown JsonText.text accepted joinBetweenFrames =
        before ++ shown JsonText.text (handed 0) joinBetweenFrames ++ after := by
  have hrun : ∃ s ∈ exec (step JsonText.text) (init Unit) joinBetweenFrames, s.doTerm = false := by
    decide +kernel
  obtain ⟨s, hs, hterm⟩ := hrun
  exact ⟨by decide +kernel, (frames_fan_out hs hterm 0).2.2.2.1⟩

end Streamer

end WebrtcStreamer
