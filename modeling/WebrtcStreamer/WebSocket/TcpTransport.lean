import Mathlib.Algebra.Order.Ring.Int
import WebrtcStreamer.Lib.Json
import WebrtcStreamer.Lib.Transition

/-!
# `WebSocket.TcpTransport` — what is sent goes to the socket in order (libdatachannel's `tcptransport.cpp`)

The socket does not block: it takes as much of a message as it has room for, and the rest is queued until the
socket is polled to be writable. Any thread may send; `mSendMutex` keeps the calls apart.

How much the socket takes is not known beforehand: `socket` holds what happens in the next calls of
`trySendMessage`.
-/

namespace WebrtcStreamer

namespace WebSocket

open Transition

/-! ## The transport -/

/-- `Transport::State`. -/
inductive TransportState
  | disconnected
  | connecting
  | connected
  | completed
  | failed
deriving DecidableEq

/-- What the calls of `::send` for a message come to: the socket takes `room` bytes, and then it would block or
    fails, unless this is all of the message. -/
structure Attempt where
  room : ℕ
  fails : Bool
deriving DecidableEq

structure TcpTransport where
  state : TransportState
  mSendQueue : List Bytes
  mBufferedAmount : ℕ
  socket : List Attempt
  /-- The socket has failed; it takes nothing any more. -/
  broken : Bool
  /-- What the socket has taken. -/
  written : Bytes
deriving DecidableEq

/-- What `trySendMessage` leaves. -/
inductive Sent
  | done
  | blocked (rest : Bytes)
  | threw

namespace TcpTransport

/-- A transport that has just been connected. -/
def opened : TcpTransport where
  state := .connected
  mSendQueue := []
  mBufferedAmount := 0
  socket := []
  broken := false
  written := []

/-- The next attempt; where none is foreseen, the socket would block. -/
def nextAttempt (t : TcpTransport) : Attempt :=
  if t.broken then { room := 0, fails := true } else t.socket.headD { room := 0, fails := false }

def trySendMessage (t : TcpTransport) (message : Bytes) : TcpTransport × Sent :=
  let attempt := t.nextAttempt
  let t := { t with socket := t.socket.tail, written := t.written ++ message.take attempt.room }
  if message.length ≤ attempt.room then (t, .done)
  else if attempt.fails then ({ t with broken := true }, .threw)
  else (t, .blocked (message.drop attempt.room))

def updateBufferedAmount (t : TcpTransport) (delta : ℤ) : TcpTransport :=
  { t with mBufferedAmount := (max (t.mBufferedAmount + delta) 0).toNat }

/-- The loop of `trySendQueue`, over what is in the queue; `none` if it throws. -/
def trySendAll (t : TcpTransport) : List Bytes → TcpTransport × Option Bool
  | [] => (t, some true)
  | message :: queue =>
      match t.trySendMessage message with
      | (t, .done) => trySendAll ({ t with mSendQueue := queue }.updateBufferedAmount (-message.length)) queue
      | (t, .blocked rest) =>
          ({ t with mSendQueue := rest :: queue }.updateBufferedAmount (-message.length + rest.length), some false)
      | (t, .threw) => (t, none)

def trySendQueue (t : TcpTransport) : TcpTransport × Option Bool := t.trySendAll t.mSendQueue

def push (t : TcpTransport) (message : Bytes) : TcpTransport :=
  { t with mSendQueue := t.mSendQueue ++ [message] }.updateBufferedAmount message.length

def outgoing (t : TcpTransport) (message : Bytes) : TcpTransport × Option Bool :=
  match t.trySendQueue with
  | (t, none) => (t, none)
  | (t, some false) => (t.push message, some false)
  | (t, some true) =>
      match t.trySendMessage message with
      | (t, .done) => (t, some true)
      | (t, .blocked rest) => (t.push rest, some false)
      | (t, .threw) => (t, none)

/-- `send`; `none` if it throws. -/
def send (t : TcpTransport) (message : Bytes) : TcpTransport × Option Bool :=
  if t.state ≠ .connected then (t, none)
  else if message = [] then t.trySendQueue
  else t.outgoing message

/-! ## What has been given is written or due -/

/-- Of the bytes that have been given, a beginning has been written; until the socket fails, the others are
    due. -/
structure Owes (given due written : Bytes) (broken : Bool) : Prop where
  inOrder : written <+: given
  complete : broken = false → written ++ due = given

theorem Owes.give {given due written : Bytes} {broken : Bool} (h : Owes given due written broken)
    (message : Bytes) : Owes (given ++ message) (due ++ message) written broken where
  inOrder := h.inOrder.trans (List.prefix_append _ _)
  complete hworks := by rw [← List.append_assoc, h.complete hworks]

theorem Owes.write {given taken due written : Bytes} {broken : Bool} (h : Owes given (taken ++ due) written broken)
    (hempty : broken = true → taken = []) : Owes given due (written ++ taken) broken := by
  have hcomplete : broken = false → written ++ taken ++ due = given := by
    intro hworks
    rw [List.append_assoc, h.complete hworks]
  refine ⟨?_, hcomplete⟩
  cases broken with
  | false => exact ⟨due, hcomplete rfl⟩
  | true =>
      rw [hempty rfl, List.append_nil]
      exact h.inOrder

theorem Owes.fail {given due written : Bytes} {broken : Bool} (h : Owes given due written broken) (due' : Bytes) :
    Owes given due' written true :=
  ⟨h.inOrder, fun hworks => by cases hworks⟩

/-- A transport that has been `given` these bytes. -/
structure Ordered (given : Bytes) (t : TcpTransport) : Prop where
  owes : Owes given t.mSendQueue.flatten t.written t.broken
  amount : t.mBufferedAmount = t.mSendQueue.flatten.length

/-- What an attempt does. Once the socket has failed, nothing more is written. -/
theorem trySendMessage_cases (t : TcpTransport) (message : Bytes) :
    (∃ socket, (t.broken = true → message = []) ∧ t.trySendMessage message =
      ({ t with socket := socket, written := t.written ++ message }, .done)) ∨
    (∃ socket room, t.broken = false ∧ t.trySendMessage message =
      ({ t with socket := socket, written := t.written ++ message.take room }, .blocked (message.drop room))) ∨
    (∃ socket room, (t.broken = true → message.take room = []) ∧ t.trySendMessage message =
      ({ t with socket := socket, broken := true, written := t.written ++ message.take room }, .threw)) := by
  have hbroken : t.broken = true → t.nextAttempt = { room := 0, fails := true } := fun h => if_pos h
  unfold trySendMessage
  by_cases hroom : message.length ≤ t.nextAttempt.room
  · left
    refine ⟨t.socket.tail, ?_, ?_⟩
    · intro h
      rw [hbroken h] at hroom
      exact List.eq_nil_of_length_eq_zero (Nat.le_zero.mp hroom)
    · simp only [if_pos hroom, List.take_of_length_le hroom]
  · right
    simp only [if_neg hroom]
    cases hfails : t.nextAttempt.fails with
    | true =>
        right
        refine ⟨t.socket.tail, t.nextAttempt.room, ?_, rfl⟩
        intro h
        rw [hbroken h]
        rfl
    | false =>
        left
        refine ⟨t.socket.tail, t.nextAttempt.room, ?_, rfl⟩
        cases h : t.broken with
        | false => rfl
        | true =>
            rw [hbroken h] at hfails
            cases hfails

/-- **The loop keeps the order**, and leaves an empty queue when it comes to its end. -/
theorem trySendAll_ordered {given : Bytes} {t : TcpTransport} (h : Ordered given t) :
    Ordered given (t.trySendAll t.mSendQueue).1 ∧
      ((t.trySendAll t.mSendQueue).2 = some true → (t.trySendAll t.mSendQueue).1.mSendQueue = []) ∧
      ((t.trySendAll t.mSendQueue).2 = none → (t.trySendAll t.mSendQueue).1.broken = true) ∧
      (t.trySendAll t.mSendQueue).1.state = t.state := by
  obtain ⟨queue, hqueue⟩ : ∃ queue, t.mSendQueue = queue := ⟨_, rfl⟩
  rw [hqueue]
  induction queue generalizing t with
  | nil => exact ⟨h, fun _ => hqueue, fun hnone => (by cases hnone), rfl⟩
  | cons message queue ih =>
      have hdue : t.mSendQueue.flatten = message ++ queue.flatten := by rw [hqueue, List.flatten_cons]
      have hamount : t.mBufferedAmount = message.length + queue.flatten.length := by
        rw [h.amount, hdue, List.length_append]
      have howes := h.owes
      rw [hdue] at howes
      rcases t.trySendMessage_cases message with ⟨socket, hempty, hsent⟩ | ⟨socket, room, hworks, hsent⟩ |
        ⟨socket, room, hempty, hsent⟩
      -- The message is written, and the loop goes on.
      · simp only [trySendAll, hsent]
        refine ih (t := updateBufferedAmount _ _) ⟨howes.write hempty, ?_⟩ rfl
        show (max ((t.mBufferedAmount : ℤ) + -message.length) 0).toNat = queue.flatten.length
        omega
      -- A part of it is written; the rest is at the front of the queue again, and the amount less by that part.
      · simp only [trySendAll, hsent]
        have hlen : (message.drop room).length ≤ message.length := by
          rw [List.length_drop]
          omega
        rw [← List.take_append_drop room message, List.append_assoc] at howes
        refine ⟨⟨howes.write fun hbroken => ?_, ?_⟩, fun hdone => ?_, fun hthrew => ?_, rfl⟩
        · rw [hworks] at hbroken
          cases hbroken
        · show (max ((t.mBufferedAmount : ℤ) + (-message.length + (message.drop room).length)) 0).toNat =
            (message.drop room ++ queue.flatten).length
          rw [List.length_append]
          omega
        · cases hdone
        · cases hthrew
      -- The socket fails: the message stays in the queue, but nothing will be written any more.
      · simp only [trySendAll, hsent]
        rw [← List.take_append_drop room message, List.append_assoc] at howes
        refine ⟨⟨(howes.write hempty).fail _, h.amount⟩, fun hdone => ?_, fun _ => trivial, trivial⟩
        cases hdone

theorem push_ordered {given rest : Bytes} {t : TcpTransport}
    (h : Owes given (t.mSendQueue.flatten ++ rest) t.written t.broken)
    (hamount : t.mBufferedAmount = t.mSendQueue.flatten.length) : Ordered given (t.push rest) := by
  have hflatten : (t.mSendQueue ++ [rest]).flatten = t.mSendQueue.flatten ++ rest := by
    rw [List.flatten_append, List.flatten_singleton]
  refine ⟨?_, ?_⟩
  · show Owes given (t.mSendQueue ++ [rest]).flatten t.written t.broken
    rw [hflatten]
    exact h
  · show (max ((t.mBufferedAmount : ℤ) + rest.length) 0).toNat = (t.mSendQueue ++ [rest]).flatten.length
    rw [hflatten, List.length_append]
    omega

/-- With nothing in the queue, a message is tried at once. -/
theorem trySendMessage_ordered {given : Bytes} {t : TcpTransport} (h : Ordered given t) (hnil : t.mSendQueue = [])
    (message : Bytes) :
    (t.trySendMessage message).1.state = t.state ∧
      match (t.trySendMessage message).2 with
      | .done | .threw => Ordered (given ++ message) (t.trySendMessage message).1
      | .blocked rest => Ordered (given ++ message) ((t.trySendMessage message).1.push rest) := by
  have hflatten : t.mSendQueue.flatten = [] := by rw [hnil, List.flatten_nil]
  have hamount : t.mBufferedAmount = t.mSendQueue.flatten.length := h.amount
  have howes := h.owes.give message
  rw [hflatten, List.nil_append] at howes
  rcases t.trySendMessage_cases message with ⟨socket, hempty, hsent⟩ | ⟨socket, room, hworks, hsent⟩ |
    ⟨socket, room, hempty, hsent⟩
  · rw [hsent]
    refine ⟨rfl, ?_, hamount⟩
    show Owes _ t.mSendQueue.flatten _ _
    rw [hflatten]
    rw [← List.append_nil message] at howes
    have hdone := Owes.write howes hempty
    rwa [List.append_nil] at hdone
  · rw [hsent]
    refine ⟨rfl, push_ordered ?_ hamount⟩
    show Owes _ (t.mSendQueue.flatten ++ message.drop room) _ _
    rw [hflatten, List.nil_append]
    refine Owes.write (by rwa [List.take_append_drop]) fun hbroken => ?_
    rw [hworks] at hbroken
    cases hbroken
  · rw [hsent]
    rw [← List.take_append_drop room message] at howes
    have hsplit := Owes.write howes hempty
    rw [List.take_append_drop] at hsplit
    exact ⟨rfl, hsplit.fail _, hamount⟩

/-- **What is sent keeps the order.** -/
theorem outgoing_ordered {given : Bytes} {t : TcpTransport} (h : Ordered given t) (message : Bytes) :
    Ordered (given ++ message) (t.outgoing message).1 ∧ (t.outgoing message).1.state = t.state := by
  obtain ⟨hqueue, hempty, hthrew, hstate⟩ := trySendAll_ordered h
  unfold outgoing trySendQueue
  rcases hrun : t.trySendAll t.mSendQueue with ⟨t', result⟩
  rw [hrun] at hqueue hempty hthrew hstate
  have howes := hqueue.owes.give message
  match result with
  -- `send` throws, and the message is lost with the socket.
  | none =>
      have hbroken : t'.broken = true := hthrew rfl
      refine ⟨⟨?_, hqueue.amount⟩, hstate⟩
      show Owes _ _ t'.written t'.broken
      rw [hbroken]
      exact howes.fail _
  -- What is in the queue comes first.
  | some false => exact ⟨push_ordered howes hqueue.amount, hstate⟩
  | some true =>
      obtain ⟨hsame, hsent⟩ := trySendMessage_ordered hqueue (hempty rfl) message
      rcases htry : t'.trySendMessage message with ⟨t'', sent⟩
      rw [htry] at hsame hsent
      simp only [htry]
      cases sent with
      | done => exact ⟨hsent, hsame.trans hstate⟩
      | blocked rest => exact ⟨hsent, hsame.trans hstate⟩
      | threw => exact ⟨hsent, hsame.trans hstate⟩

/-! ## What throws -/

/-- A call has left the transport as it should: it throws only on a socket that has failed then, and it returns
    from one that has failed before only if there was nothing to write. -/
structure Failed (t t' : TcpTransport) (threw empty : Prop) : Prop where
  state : t'.state = t.state
  failed : threw → t'.broken = true
  returned : ¬ threw → t'.broken = t.broken ∧ (t.broken = true → empty)

theorem trySendMessage_failed (t : TcpTransport) (message : Bytes) :
    Failed t (t.trySendMessage message).1 ((t.trySendMessage message).2 = .threw)
      ((t.trySendMessage message).2 = .done ∧ message = []) := by
  rcases t.trySendMessage_cases message with ⟨socket, hempty, hsent⟩ | ⟨socket, room, hworks, hsent⟩ |
    ⟨socket, room, -, hsent⟩
  · rw [hsent]
    exact ⟨rfl, fun hthrew => (nomatch hthrew), fun _ => ⟨rfl, fun hbroken => ⟨rfl, hempty hbroken⟩⟩⟩
  · rw [hsent]
    refine ⟨rfl, fun hthrew => (nomatch hthrew), fun _ => ⟨rfl, fun hbroken => ?_⟩⟩
    exact absurd (hworks.symm.trans hbroken) (by simp)
  · rw [hsent]
    exact ⟨rfl, fun _ => rfl, fun hne => absurd rfl hne⟩

theorem trySendAll_failed (t : TcpTransport) (queue : List Bytes) :
    Failed t (t.trySendAll queue).1 ((t.trySendAll queue).2 = none) ((t.trySendAll queue).2 = some true) := by
  induction queue generalizing t with
  | nil => exact ⟨rfl, fun hnone => (nomatch hnone), fun _ => ⟨rfl, fun _ => rfl⟩⟩
  | cons message queue ih =>
      obtain ⟨hstate, hthrew, hreturned⟩ := trySendMessage_failed t message
      rcases htry : t.trySendMessage message with ⟨t', sent⟩
      rw [htry] at hstate hthrew hreturned
      simp only [trySendAll, htry]
      cases sent with
      -- The loop goes on with the queue behind the message, on a socket that is as good as before.
      | done =>
          obtain ⟨hbroken, -⟩ := hreturned (by simp)
          obtain ⟨hstate', hthrew', hreturned'⟩ :=
            ih ({ t' with mSendQueue := queue }.updateBufferedAmount (-message.length))
          refine ⟨hstate'.trans hstate, hthrew', fun hne => ?_⟩
          obtain ⟨hkept, hempty⟩ := hreturned' hne
          exact ⟨hkept.trans hbroken, fun h => hempty (hbroken.trans h)⟩
      | blocked rest =>
          obtain ⟨hbroken, hempty⟩ := hreturned (by simp)
          refine ⟨hstate, fun hnone => (nomatch hnone), fun _ => ⟨hbroken, fun h => ?_⟩⟩
          exact absurd (hempty h).1 (by simp)
      | threw => exact ⟨hstate, fun _ => hthrew rfl, fun hne => absurd rfl hne⟩

/-- **When `send` throws**: if the transport is not connected, or the socket has failed by the end of the call. -/
theorem send_eq_none_iff {t : TcpTransport} {message : Bytes} (hne : message ≠ []) :
    ((t.send message).2 = none ↔ t.state ≠ .connected ∨ (t.send message).1.broken = true) ∧
      (t.send message).1.state = t.state := by
  by_cases hstate : t.state = .connected
  · have hsend : t.send message = t.outgoing message := by
      rw [send, if_neg (not_not_intro hstate), if_neg hne]
    obtain ⟨hkept, hthrew, hreturned⟩ := trySendAll_failed t t.mSendQueue
    rw [hsend, outgoing, trySendQueue]
    rcases hqueue : t.trySendAll t.mSendQueue with ⟨t', result⟩
    rw [hqueue] at hkept hthrew hreturned
    match result with
    | none => exact ⟨⟨fun _ => .inr (hthrew rfl), fun _ => rfl⟩, hkept⟩
    -- The socket would block: one that has failed does not, it throws.
    | some false =>
        obtain ⟨hbroken, hempty⟩ := hreturned (by simp)
        refine ⟨⟨fun hnone => (nomatch hnone), fun hfailed => ?_⟩, hkept⟩
        rcases hfailed with hno | hfailed
        · exact absurd hstate hno
        · exact absurd (hempty (hbroken.symm.trans hfailed)) (by simp)
    | some true =>
        obtain ⟨hkept', hthrew', hreturned'⟩ := trySendMessage_failed t' message
        rcases htry : t'.trySendMessage message with ⟨t'', sent⟩
        rw [htry] at hkept' hthrew' hreturned'
        simp only [htry]
        have hworks : sent ≠ .threw → t''.broken ≠ true := by
          intro hsent hfailed
          obtain ⟨hbroken, hempty⟩ := hreturned' hsent
          exact hne (hempty (hbroken.symm.trans hfailed)).2
        cases sent with
        | done =>
            refine ⟨⟨fun hnone => (nomatch hnone), fun hfailed => ?_⟩, hkept'.trans hkept⟩
            exact absurd (hfailed.resolve_left (not_not_intro hstate)) (hworks (by simp))
        | blocked rest =>
            refine ⟨⟨fun hnone => (nomatch hnone), fun hfailed => ?_⟩, hkept'.trans hkept⟩
            exact absurd (hfailed.resolve_left (not_not_intro hstate)) (hworks (by simp))
        | threw => exact ⟨⟨fun _ => .inr (hthrew' rfl), fun _ => rfl⟩, hkept'.trans hkept⟩
  · have hsend : t.send message = (t, none) := by
      rw [send, if_pos hstate]
    rw [hsend]
    exact ⟨⟨fun _ => .inl hstate, fun _ => rfl⟩, rfl⟩

/-! ## Runs -/

inductive Action
  | send (message : Bytes)
  /-- The socket is polled to be writable. -/
  | writable
  /-- What the socket does next. -/
  | socket (attempts : List Attempt)
  /-- The connection is closed or lost, here or at the other end. -/
  | disconnect
deriving DecidableEq

/-- `process`, where the socket is writable: an exception ends the connection. -/
def processOut (t : TcpTransport) : TcpTransport :=
  match t.trySendQueue with
  | (t, some _) => t
  | (t, none) => { t with state := .disconnected }

def step (t : TcpTransport) : Action → Option TcpTransport
  | .send message => some (t.send message).1
  | .writable => some t.processOut
  | .socket attempts => some { t with socket := attempts }
  | .disconnect => some { t with state := .disconnected }

/-- The bytes that a step gives to the transport. Where `send` throws because the socket fails, the message may
    have been written in part. -/
def given (t : TcpTransport) : Action → Bytes
  | .send message => if t.state = .connected then message else []
  | _ => []

theorem processOut_ordered {given : Bytes} {t : TcpTransport} (h : Ordered given t) : Ordered given t.processOut := by
  obtain ⟨hqueue, -, -, -⟩ := trySendAll_ordered h
  unfold processOut trySendQueue
  rcases hrun : t.trySendAll t.mSendQueue with ⟨t', result⟩
  rw [hrun] at hqueue
  cases result with
  | none => exact ⟨hqueue.owes, hqueue.amount⟩
  | some _ => exact hqueue

theorem send_ordered {given : Bytes} {t : TcpTransport} (h : Ordered given t) (message : Bytes) :
    Ordered (given ++ t.given (.send message)) (t.send message).1 := by
  simp only [send, TcpTransport.given]
  by_cases hstate : t.state = .connected
  · rw [if_neg (not_not_intro hstate), if_pos hstate]
    by_cases hempty : message = []
    · rw [if_pos hempty, hempty, List.append_nil]
      exact (trySendAll_ordered h).1
    · rw [if_neg hempty]
      exact (outgoing_ordered h message).1
  · rw [if_pos hstate, if_neg hstate, List.append_nil]
    exact h

theorem step_ordered {given : Bytes} {t t' : TcpTransport} {a : Action} (h : Ordered given t)
    (hstep : t.step a = some t') : Ordered (given ++ t.given a) t' := by
  have hnil : given ++ [] = given := List.append_nil given
  cases a with
  | send message =>
      cases hstep
      exact send_ordered h message
  | writable =>
      cases hstep
      exact hnil.symm ▸ processOut_ordered h
  | socket attempts =>
      cases hstep
      exact hnil.symm ▸ ⟨h.owes, h.amount⟩
  | disconnect =>
      cases hstep
      exact hnil.symm ▸ ⟨h.owes, h.amount⟩

theorem exec_ordered {t : TcpTransport} {as : List Action} (h : exec step opened as = some t) :
    Ordered (trace step given opened as) t := by
  refine exec_induction (motive := fun as t => Ordered (trace step given opened as) t) ?_ ?_ as t h
  · exact ⟨⟨List.prefix_rfl, fun _ => rfl⟩, rfl⟩
  · intro as t a t' hexec ih hstep
    rw [trace_snoc hexec]
    exact step_ordered ih hstep

/-- **Nothing is lost, repeated or put out of order on the way to the socket.** However much the socket takes at a
    time, what it has taken is a beginning of what has been sent; until it fails, the rest is in the queue, and
    the buffered amount is its length. -/
theorem sent_in_order {t : TcpTransport} {as : List Action} (h : exec step opened as = some t) :
    t.written <+: trace step given opened as ∧
      (t.broken = false → t.written ++ t.mSendQueue.flatten = trace step given opened as) ∧
      t.mBufferedAmount = t.mSendQueue.flatten.length :=
  have hordered := exec_ordered h
  ⟨hordered.owes.inOrder, hordered.owes.complete, hordered.amount⟩

/-- The socket takes two bytes and would block, then one more of the first message. -/
theorem sent_in_order_blocked :
    ∃ t, exec step opened [.socket [⟨2, false⟩], .send [1, 2, 3], .send [4, 5], .socket [⟨1, false⟩], .writable] =
        some t ∧
      t.written ++ t.mSendQueue.flatten = [1, 2, 3, 4, 5] ∧ t.mBufferedAmount = 2 := by
  have hrun : ((exec step opened
      [.socket [⟨2, false⟩], .send [1, 2, 3], .send [4, 5], .socket [⟨1, false⟩], .writable]).any fun t =>
        !t.broken && t.mSendQueue == [[4, 5]]) = true := by
    decide
  obtain ⟨t, ht, hall⟩ := (Option.any_eq_true _ _).mp hrun
  obtain ⟨hworks, hqueue⟩ := Bool.and_eq_true_iff.mp hall
  obtain ⟨-, hordered, hamount⟩ := sent_in_order ht
  refine ⟨t, ht, ?_, ?_⟩
  · rw [hordered (by simpa using hworks)]
    rfl
  · rw [hamount, eq_of_beq hqueue]
    rfl

end TcpTransport

end WebSocket

end WebrtcStreamer
