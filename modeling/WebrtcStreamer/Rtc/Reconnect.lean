import WebrtcStreamer.Lib.JsonText
import WebrtcStreamer.Rtc.Objects
import WebrtcStreamer.Streamer.Offers
import WebrtcStreamer.Streamer.Outgoing

/-!
# `Rtc.Reconnect` — the WebSocket is closed and opened again

When the connection to the relay is lost, the `onClosed` callback opens the socket again. Two things go on
meanwhile as if nothing had happened. The loop sends what the clients have produced: `reconnect_iff` says
that a message is lost, and the process with it, whenever the socket is not open at that moment, or is still
open over a connection that is lost. The destructor closes the socket once: `no_reopening_iff` says that it
stays closed only if both places that open it, the start of the signaling thread and the callback, have got
past their calls.
-/

namespace WebrtcStreamer

namespace Rtc

open Transition
open Streamer (Fault)

variable {ι : Type} {C : Codec} {wellFormed : Bytes → Bool}

/-! ## Where `open` is called -/

/-- Whoever is about to open the socket finds it closed. -/
structure Linked (s : State ι) : Prop where
  starting : s.started = false → s.webSocket = .closed ∧ s.onClosed = .idle
  calledBack : s.onClosed ≠ .idle → s.webSocket = .closed

theorem linked_init : Linked (init ι) where
  starting := fun _ => ⟨rfl, rfl⟩
  calledBack := fun h => absurd rfl h

theorem linked_step {s s' : State ι} {a : Action ι} (hl : Linked s) (h : step C wellFormed s a = some s') :
    Linked s' := by
  cases (step_cases h).2 with
  | @streamer a t _ _ =>
      -- a socket that is closed stays so when it is closed
      have hclosed : s.webSocket = .closed → (follow s t a).webSocket = .closed := by
        intro hws
        rcases follow_webSocket s t a with hsame | hclose
        · exact hsame.trans hws
        · rw [hclose, hws]
          rfl
      constructor
      · rw [follow_started, follow_onClosed]
        intro hstarted
        exact ⟨hclosed (hl.starting hstarted).1, (hl.starting hstarted).2⟩
      · rw [follow_onClosed]
        intro hcalled
        exact hclosed (hl.calledBack hcalled)
  | started hstarted _ =>
      constructor
      · intro h
        exact absurd h (by simp)
      · intro hcalled
        exact absurd (hl.starting hstarted).2 hcalled
  | connected hws =>
      constructor
      · intro hstarted
        exact absurd (hws.symm.trans (hl.starting hstarted).1) (by simp)
      · intro hcalled
        exact absurd (hws.symm.trans (hl.calledBack hcalled)) (by simp)
  | disconnected hws _ =>
      constructor
      · intro hstarted
        exact absurd (hl.starting hstarted).1 hws
      · intro _
        rfl
  | tested hentered =>
      have hws := hl.calledBack (by rw [hentered]; simp)
      constructor
      · intro hstarted
        exact absurd (hentered.symm.trans (hl.starting hstarted).2) (by simp)
      · intro _
        exact hws
  | reopened hsleeping _ =>
      constructor
      · intro hstarted
        exact absurd (hsleeping.symm.trans (hl.starting hstarted).2) (by simp)
      · intro hcalled
        exact absurd rfl hcalled
  | changed | found _ _ | tracked => exact { hl with }

theorem exec_linked {as : List (Action ι)} {s : State ι} (h : exec (step C wellFormed) (init ι) as = some s) :
    Linked s := by
  apply exec_invariant linked_init ?_ as s h
  intro s a s' hl hst
  exact linked_step hl hst

/-- The step executes `_signalingWS->open`. -/
def Action.opens : Action ι → Bool
  | .start | .onClosed .reopen => true
  | _ => false

/-- `open` returns: whoever has come as far as that can open the socket. -/
theorem Linked.open_returns (C : Codec) (wellFormed : Bytes → Bool) {s : State ι} (hl : Linked s)
    (hf : s.streamer.fault = none) (h : s.started = false ∨ s.onClosed = .sleeping) :
    ∃ a s', a.opens = true ∧ step C wellFormed s a = some s' := by
  rcases h with hstarted | hsleeping
  · have hws := (hl.starting hstarted).1
    refine ⟨.start, { s with started := true, webSocket := .connecting }, rfl, ?_⟩
    simp [step, hf, hstarted, hws, webSocketOpen]
  · have hws := hl.calledBack (by rw [hsleeping]; simp)
    refine ⟨.onClosed .reopen, { s with onClosed := .idle, webSocket := .connecting }, rfl, ?_⟩
    simp [step, hf, hsleeping, hws, webSocketOpen]

/-! ## No reopening after the close -/

/-- Nobody is about to open the socket, nor will be. -/
structure Settled (s : State ι) : Prop where
  started : s.started = true
  awake : s.onClosed ≠ .sleeping
  term : s.streamer.doTerm = true

theorem settled_step {s s' : State ι} {a : Action ι} (hq : Settled s) (h : step C wellFormed s a = some s') :
    a.opens = false ∧ Settled s' := by
  cases (step_cases h).2 with
  | @streamer a t _ ht =>
      refine ⟨rfl, ?_, ?_, ?_⟩
      · rw [follow_started]
        exact hq.started
      · rw [follow_onClosed]
        exact hq.awake
      · rw [follow_streamer]
        exact Streamer.doTerm_step ht hq.term
  | started hstarted _ => exact absurd (hstarted.symm.trans hq.started) (by simp)
  | reopened hsleeping _ => exact absurd hsleeping hq.awake
  | tested _ =>
      -- the callback finds `_do_term` set
      refine ⟨rfl, hq.started, ?_, hq.term⟩
      simp [hq.term]
  | disconnected _ _ => exact ⟨rfl, hq.started, by simp, hq.term⟩
  | connected _ | changed | found _ _ | tracked => exact ⟨rfl, hq.started, hq.awake, hq.term⟩

theorem settled_exec (bs : List (Action ι)) : ∀ (s t : State ι), Settled s →
    exec (step C wellFormed) s bs = some t → ∀ b ∈ bs, b.opens = false := by
  induction bs with
  | nil =>
      intro s t _ _ b hb
      exact absurd hb List.not_mem_nil
  | cons a as ih =>
      intro s t hq h b hb
      obtain ⟨s', hst, hrest⟩ := exec_cons_some.mp h
      obtain ⟨hquiet, hq'⟩ := settled_step hq hst
      rcases List.mem_cons.mp hb with rfl | hb
      · exact hquiet
      · exact ih s' t hq' hrest b hb

/-- **Reopening, exactly.** Whenever the destructor closes the WebSocket, no `open` is executed in any run
    from there on if and only if at that moment the signaling thread has executed its own and the `onClosed`
    callback is not between its test of `_do_term` and its `open`. -/
theorem no_reopening_iff {as : List (Action ι)} {s s' : State ι}
    (h : exec (step C wellFormed) (init ι) as = some s) (hd : s.streamer.destructor = .closeWebSocket)
    (hst : step C wellFormed s (.streamer .destructor) = some s') :
    (∀ bs t, exec (step C wellFormed) s' bs = some t → ∀ b ∈ bs, b.opens = false) ↔
      s.started = true ∧ s.onClosed ≠ .sleeping := by
  have hl' := linked_step (exec_linked h) hst
  obtain ⟨hf, hstepped⟩ := step_cases hst
  obtain ⟨-, -, -, hp⟩ := Streamer.exec_stopping (exec_streamer h)
  cases hstepped with
  | @streamer _ t _ ht =>
      constructor
      · intro hquiet
        have hf' : (follow s t .destructor).streamer.fault = none := by
          rw [follow_streamer]
          cases (Streamer.step_cases ht).2 with
          | destructor hs => cases hs <;> exact hf
        -- otherwise the one who is late opens it next
        have hlate : ¬ ((follow s t .destructor).started = false ∨
            (follow s t .destructor).onClosed = .sleeping) := by
          intro hlate
          obtain ⟨a, u, hopens, hau⟩ := hl'.open_returns C wellFormed hf' hlate
          have hno := hquiet [a] u (exec_cons_some.mpr ⟨u, hau, rfl⟩) a List.mem_cons_self
          exact absurd (hno.symm.trans hopens) (by simp)
        rw [follow_started, follow_onClosed] at hlate
        constructor
        · by_cases hstarted : s.started = true
          · exact hstarted
          · exact absurd (.inl (by simpa using hstarted)) hlate
        · intro hsleeping
          exact hlate (.inr hsleeping)
      · rintro ⟨hstarted, hawake⟩ bs t' hbs
        apply settled_exec bs _ t' ?_ hbs
        refine ⟨?_, ?_, ?_⟩
        · rw [follow_started]
          exact hstarted
        · rw [follow_onClosed]
          exact hawake
        · rw [follow_streamer]
          exact Streamer.doTerm_step ht (hp.term (by rw [hd]; simp))

/-- The socket is open when the streamer goes. -/
def orderlyClose : List (Action Unit) := [.start, .connect, .streamer .destructor, .streamer .destructor]

theorem no_reopening_iff_orderly :
    ∃ s' ∈ exec (step JsonText.text fun _ => true) (init Unit) (orderlyClose ++ [.streamer .destructor]),
      ∀ bs t, exec (step JsonText.text fun _ => true) s' bs = some t → ∀ b ∈ bs, b.opens = false := by
  have hrun : ∃ s ∈ exec (step JsonText.text fun _ => true) (init Unit) orderlyClose,
      s.streamer.destructor = .closeWebSocket ∧ (s.started = true ∧ s.onClosed ≠ .sleeping) ∧
        (exec (step JsonText.text fun _ => true) s [.streamer .destructor]).isSome := by decide +kernel
  obtain ⟨s, hs, hd, hsettled, hnext⟩ := hrun
  obtain ⟨s', hs'⟩ := Option.isSome_iff_exists.mp hnext
  obtain ⟨s'', hst, hnil⟩ := exec_cons_some.mp hs'
  obtain rfl := Option.some.inj hnil
  exact ⟨s'', exec_append_some.mpr ⟨s, hs, hs'⟩, (no_reopening_iff hs hd hst).mpr hsettled⟩

/-- The destructor is faster than the start of the signaling thread; or than the callback, which has found
    `_do_term` not set. -/
theorem reopened_after_close :
    (∃ s ∈ exec (step JsonText.text fun _ => true) (init Unit) [.streamer .destructor, .streamer .destructor],
      s.streamer.destructor = .closeWebSocket ∧
        ∃ t ∈ exec (step JsonText.text fun _ => true) s [.streamer .destructor, .start],
          t.webSocket = .connecting) ∧
    ∃ s ∈ exec (step JsonText.text fun _ => true) (init Unit)
        [.start, .connect, .disconnect, .onClosed .test, .streamer .destructor, .streamer .destructor],
      s.streamer.destructor = .closeWebSocket ∧
        ∃ t ∈ exec (step JsonText.text fun _ => true) s [.streamer .destructor, .onClosed .reopen],
          t.webSocket = .connecting := by
  decide +kernel

/-! ## Messages while the socket is not open -/

/-- No exception has left the signaling loop. -/
def LoopAlive (s : State ι) : Prop := ∀ f, s.streamer.fault = some f → f.fromLoop = false

/-- The transports are connected, and the TCP socket takes what is sent. -/
structure Connection.Works (connection : Connection) : Prop where
  wsTransport : connection.wsTransport = .connected
  tcpTransport : connection.tcpTransport = .connected
  socket : connection.broken = false

/-- If the step sends a message, the socket is open, the connection below it works, and the message is not too
    long. -/
def SendsOpen (s : State ι) (a : Action ι) : Prop :=
  match a with
  | .streamer (.loop (.send _)) =>
      ∀ message source, s.streamer.loop = .sending message source →
        s.webSocket = .opened ∧ s.connection.Works ∧ message.length ≤ maxMessageSize
  | _ => True

/-- If the step takes a message that was received, the message is harmless. -/
def TakesHarmless (C : Codec) (s : State ι) (a : Action ι) : Prop :=
  match a with
  | .streamer a => Streamer.TakesHarmless C s.streamer a
  | _ => True

theorem Connection.works_iff {connection : Connection} : connection.sendThrows = false ↔ connection.Works := by
  unfold Connection.sendThrows
  constructor
  · intro h
    simp only [Bool.or_eq_false_iff, bne_eq_false_iff_eq] at h
    exact ⟨h.1.1, h.1.2, h.2⟩
  · rintro ⟨hws, htcp, hsocket⟩
    simp [hws, htcp, hsocket]

theorem sendThrows_false_iff {webSocket : WebSocket} {connection : Connection} {message : Bytes} :
    sendThrows webSocket connection message = false ↔
      webSocket = .opened ∧ connection.Works ∧ message.length ≤ maxMessageSize := by
  rw [← Connection.works_iff]
  simp [sendThrows, and_assoc, and_comm]

/-- The send of a step returns exactly if the socket lets it. -/
theorem sendReturns_iff {s : State ι} {a : Streamer.Action ι} (hf : s.streamer.fault = none)
    (hallows : allows wellFormed s a = true) :
    Streamer.SendReturns s.streamer a ↔ SendsOpen s (.streamer a) := by
  cases a with
  | loop a =>
      cases a with
      | send threw =>
          simp only [allows, Bool.and_eq_true] at hallows
          obtain ⟨-, hthrew⟩ := hallows
          split at hthrew
          · rename_i message source hpc
            have heq : threw = sendThrows s.webSocket s.connection message := by simpa using hthrew
            constructor
            · intro hreturns message' source' hpc'
              obtain ⟨rfl, rfl⟩ := Streamer.Loop.sending.inj (hpc.symm.trans hpc')
              rw [← sendThrows_false_iff, ← heq]
              exact hreturns hf ⟨message, source, hpc⟩
            · intro hopen _ _
              rw [heq, sendThrows_false_iff]
              exact hopen message source hpc
          · exact absurd hthrew (by simp)
      | check | pop | emplace | erase | destroy | answer | join => exact ⟨fun _ => trivial, fun _ => trivial⟩
  | onMessage _ | collector _ | multimedia _ | pushData _ | client _ _ | destructor =>
      exact ⟨fun _ => trivial, fun _ => trivial⟩

/-- **One step**: the loop survives it exactly if it takes nothing harmful and sends on an open socket over a
    connection that works. -/
theorem loopAlive_step {s s' : State ι} {a : Action ι} (ht : Streamer.Traced C s.streamer)
    (h : step C wellFormed s a = some s') : LoopAlive s' ↔ TakesHarmless C s a ∧ SendsOpen s a := by
  obtain ⟨hf, hstepped⟩ := step_cases h
  have hkept : LoopAlive s := by
    intro f hs
    exact absurd (hs.symm.trans hf) (by simp)
  cases hstepped with
  | @streamer a t hallows hst =>
      have hone : LoopAlive (follow s t a) ↔ Streamer.Survives C s.streamer a := by
        unfold LoopAlive
        rw [follow_streamer]
        constructor
        · intro halive t' ht'
          obtain rfl := Option.some.inj (hst.symm.trans ht')
          exact halive
        · intro hsurvives
          exact hsurvives t hst
      rw [hone, Streamer.survives_iff ht a, sendReturns_iff hf hallows]
      rfl
  | started _ _ | connected _ | disconnected _ _ | changed | tested _ | reopened _ _ | found _ _ | tracked =>
      exact ⟨fun _ => ⟨trivial, trivial⟩, fun _ => hkept⟩

/-- **Sending across reconnects, exactly.** In every run, no exception has left the signaling loop and every
    message that it took in order to send it has been handed to the socket, in order, or is still to be, if
    and only if, whenever a message was sent, the socket was open and the connection below it worked (and the
    message was not too long), and the received messages that the loop took were harmless. -/
theorem reconnect_iff {as : List (Action ι)} {s : State ι}
    (h : exec (step C wellFormed) (init ι) as = some s) :
    (LoopAlive s ∧
      Streamer.shown C (Streamer.toSend C) (streamerRun as) =
        Streamer.shown C Streamer.handedOver (streamerRun as) ++ s.streamer.unsent) ↔
      Always (step C wellFormed) (fun s a => TakesHarmless C s a ∧ SendsOpen s a) (init ι) as := by
  have halways : LoopAlive s ↔
      Always (step C wellFormed) (fun s a => TakesHarmless C s a ∧ SendsOpen s a) (init ι) as := by
    refine final_iff_always (I := fun s => Streamer.Sane s.streamer ∧ Streamer.Traced C s.streamer)
      ?_ ?_ ?_ as (init ι) s ⟨Streamer.sane_init, Streamer.traced_init⟩ ?_ h
    · intro s a s' hi hst
      refine streamer_invariant (I := fun s => Streamer.Sane s ∧ Streamer.Traced C s) ?_ s a s' hi hst
      rintro t b t' ⟨hs, ht⟩ hb
      exact ⟨Streamer.sane_step hs hb, Streamer.traced_step hs ht hb⟩
    · intro s a s' hst f hs
      exact absurd (hs.symm.trans (step_cases hst).1) (by simp)
    · intro s a s' hi hst
      exact loopAlive_step hi.2 hst
    · intro f hs
      exact absurd hs (by simp [init, Streamer.init])
  rw [← halways, Streamer.nothing_lost_iff (exec_streamer h)]
  constructor
  · rintro ⟨halive, -⟩
    exact halive
  · intro halive
    refine ⟨halive, fun hs => ?_⟩
    exact absurd (halive .webSocketSend hs) (by simp [Fault.fromLoop])

/-- The connection is lost and opened again before the first request. -/
def reconnected : List (Action Unit) :=
  [.start, .connect, .disconnect, .onClosed .test, .onClosed .reopen, .connect] ++
    (Streamer.firstRequest ++ Streamer.offerSent).map .streamer

theorem reconnect_iff_reconnected :
    Always (step JsonText.text fun _ => true) (fun s a => TakesHarmless JsonText.text s a ∧ SendsOpen s a)
      (init Unit) reconnected := by
  have hrun : ∃ s ∈ exec (step JsonText.text fun _ => true) (init Unit) reconnected,
      s.streamer.fault = none ∧
        Streamer.shown JsonText.text (Streamer.toSend JsonText.text) (streamerRun reconnected) =
          Streamer.shown JsonText.text Streamer.handedOver (streamerRun reconnected) ++ s.streamer.unsent := by
    decide +kernel
  obtain ⟨s, hs, hf, hsent⟩ := hrun
  refine (reconnect_iff hs).mp ⟨fun f hs => ?_, hsent⟩
  exact absurd (hs.symm.trans hf) (by simp)

/-- The loop has taken the offer from the queue and sends it, and `send` throws. -/
def offerTaken (events : List (Action Unit)) : List (Action Unit) :=
  [.start, .connect] ++ (Streamer.firstRequest ++ Streamer.offerSent.dropLast).map .streamer ++ events ++
    [.streamer (.loop (.send true))]

/-- The connection is lost meanwhile, and the socket is closed; or the connection has been reset, and the socket
    is still open. -/
theorem offer_lost :
    (∃ s ∈ exec (step JsonText.text fun _ => true) (init Unit) (offerTaken [.disconnect]),
      s.streamer.fault = some .webSocketSend ∧ s.webSocket = .closed ∧
        (Streamer.shown JsonText.text (Streamer.toSend JsonText.text)
          (streamerRun (offerTaken [.disconnect]))).map Prod.snd = [.client 0] ∧
        Streamer.shown JsonText.text Streamer.handedOver (streamerRun (offerTaken [.disconnect])) = []) ∧
    ∃ s ∈ exec (step JsonText.text fun _ => true) (init Unit) (offerTaken [.connection .reset]),
      s.streamer.fault = some .webSocketSend ∧ s.webSocket = .opened ∧
        (Streamer.shown JsonText.text (Streamer.toSend JsonText.text)
          (streamerRun (offerTaken [.connection .reset]))).map Prod.snd = [.client 0] ∧
        Streamer.shown JsonText.text Streamer.handedOver (streamerRun (offerTaken [.connection .reset])) = [] := by
  decide +kernel

end Rtc

end WebrtcStreamer
