import WebrtcStreamer.Streamer.Step
import WebrtcStreamer.Lib.Transition

/-!
# `Teardown.State` — `~Client` and the `PeerConnection` that calls back into it

`Streamer.Client` ends with the body of `~Client`. Here one client is followed to its last member, next to
the library that still calls its callbacks.

* The thread in `~Client` runs the body, then destroys the members, the last declared first. Destroying
  `_peerConnection` runs `~PeerConnection` if nobody else holds a reference.
* `mProcessor` runs the tasks of the `PeerConnection` one after the other: the callbacks for every change
  of state except the last, and `remoteClose`.
* `close` and `remoteClose` run on whichever of the two calls them. The change to `Closed` takes the callback
  away from the `PeerConnection` and calls it on the spot; `resetCallbacks` then drops the others. Moving or
  dropping a callback waits until no other thread is in it.
* The other threads of the library change states and transports, and ask for `remoteClose`, at any moment.

A push into a member that is gone is undefined behaviour; the step is left in, so that it can be seen.
-/

namespace WebrtcStreamer

namespace Teardown

open Streamer (Client ClientAction PeerState GatheringState DescriptionType stateChangeMessage
  gatheringMessage)

/-! ## The members of `Client` -/

inductive Member
  | id
  | peerConnection
  | videoTrack
  | publicTrackMutex
  | dataChannel
  | signalingQueueIn
  | signalingQueueOut
  | signalingThread
  | stunServer
  | doTerm
deriving DecidableEq

/-- In the order of their declaration. -/
def members : List Member :=
  [.id, .peerConnection, .videoTrack, .publicTrackMutex, .dataChannel, .signalingQueueIn, .signalingQueueOut,
    .signalingThread, .stunServer, .doTerm]

/-! ## `PeerConnection` -/

/-- The tasks of `mProcessor` that matter to the callbacks. -/
inductive Task
  | stateChange (state : PeerState)  -- trigger<State>
  | gatheringStateChange (state : GatheringState)  -- trigger<GatheringState>
  | remoteClose
deriving DecidableEq

structure PeerConnection where
  closing : Bool
  state : PeerState
  gatheringState : GatheringState
  localDescription : DescriptionType × Bytes
  /-- `mSctpTransport` is there. -/
  sctpTransport : Bool
  stateChangeCallback : Bool
  gatheringStateChangeCallback : Bool
  tasks : List Task
deriving DecidableEq

/-- As the constructor of `Client` leaves it: both callbacks registered, the local description set. -/
def PeerConnection.new (localDescription : DescriptionType × Bytes) : PeerConnection where
  closing := false
  state := .new
  gatheringState := .new
  localDescription := localDescription
  sctpTransport := false
  stateChangeCallback := true
  gatheringStateChangeCallback := true
  tasks := []

/-- What the other threads of the library do. -/
inductive Event
  | stateChange (state : PeerState)
  | gatheringStateChange (state : GatheringState)
  | localDescription (type : DescriptionType) (sdp : Bytes)
  | sctpTransport (there : Bool)
  | remoteClose
deriving DecidableEq

/-- `changeState`, short of `Closed`, and `changeGatheringState` enqueue the callback. -/
def PeerConnection.apply (pc : PeerConnection) : Event → Option PeerConnection
  | .stateChange state =>
      if state = .closed ∨ pc.state = .closed ∨ pc.state = state then none
      else some { pc with state := state, tasks := pc.tasks ++ [.stateChange state] }
  | .gatheringStateChange state =>
      if pc.gatheringState = state then none
      else some { pc with gatheringState := state, tasks := pc.tasks ++ [.gatheringStateChange state] }
  | .localDescription type sdp => some { pc with localDescription := (type, sdp) }
  | .sctpTransport there => some { pc with sctpTransport := there }
  | .remoteClose => some { pc with tasks := pc.tasks ++ [.remoteClose] }

/-! ## Positions -/

/-- A call of `close`, or of `remoteClose`, which begins with one of `close`. -/
inductive Closing
  | exchange (remote : Bool)  -- closing.exchange(true)
  | transport (remote : Bool)  -- if (mSctpTransport)
  | change  -- changeState(State::Closed)
  | steal
  | report
  | reset  -- resetCallbacks
  | returned
  | thrown
deriving DecidableEq

/-- The gathering-state callback. -/
inductive Gathering
  | called (state : GatheringState)
  | pushing (message : Bytes)  -- from here on it holds `pc`
  | releasing
  | destroying (c : Closing)  -- `pc` was the last reference: in ~PeerConnection
deriving DecidableEq

inductive Processor
  | idle
  | stateChange (state : PeerState)  -- in the state-change callback
  | gathering (g : Gathering)
  | closing (c : Closing)
deriving DecidableEq

/-- The thread in `~Client`; `rest` is what is still to be destroyed. -/
inductive Destroyer
  | body  -- at the statement that the client's `lifetime` names
  | closing (c : Closing)  -- in _peerConnection->close()
  | members (rest : List Member)
  | releasing (c : Closing) (rest : List Member)  -- in ~PeerConnection
deriving DecidableEq

structure State where
  client : Client
  peerConnection : PeerConnection
  processor : Processor
  destroyer : Destroyer
deriving DecidableEq

/-- After the constructor. -/
def init (id : Bytes) (localDescription : DescriptionType × Bytes) : State where
  client := .new id
  peerConnection := .new localDescription
  processor := .idle
  destroyer := .body

/-- The destruction of the member has begun. -/
def Destroyer.gone (m : Member) : Destroyer → Bool
  | .body | .closing _ => false
  | .members rest | .releasing _ rest => !rest.contains m

/-- The `pc` of the gathering-state callback. -/
def Processor.holds : Processor → Bool
  | .gathering (.pushing _) | .gathering .releasing => true
  | _ => false

/-- The processor is in the gathering-state callback and holds its mutex. -/
def Processor.inGathering : Processor → Bool
  | .gathering _ => true
  | _ => false

/-- The processor is in the state-change callback and holds its mutex. -/
def Processor.inStateChange : Processor → Bool
  | .stateChange _ => true
  | _ => false

/-! ## Steps -/

/-- `_signalingQueueOut.push`. -/
def State.push (s : State) (text : Bytes) : Option State := do
  let q ← s.client.signalingQueueOut.tryPush text
  some { s with client := { s.client with signalingQueueOut := q } }

variable (C : Codec)

/-- `close` and `remoteClose`; `own` says that the processor runs them, whose own mutex does not stop it. -/
def stepClosing (own : Bool) (s : State) : Closing → Option (State × Closing)
  | .exchange remote =>
      if s.peerConnection.closing then some (s, if remote then .change else .returned)
      else some ({ s with peerConnection := { s.peerConnection with closing := true } }, .transport remote)
  | .transport remote =>
      -- transport->stop() only starts the shutdown; remoteClose goes on
      some (s, if s.peerConnection.sctpTransport && !remote then .returned else .change)
  | .change =>
      if s.peerConnection.state = .closed then some (s, .returned)
      else some ({ s with peerConnection := { s.peerConnection with state := .closed } }, .steal)
  | .steal =>
      if s.processor.inStateChange then none
      else some ({ s with peerConnection := { s.peerConnection with stateChangeCallback := false } },
        if s.peerConnection.stateChangeCallback then .report else .reset)
  | .report =>
      match stateChangeMessage C s.client.id .closed with
      | some text => (s.push text).map fun s' => (s', .reset)
      | none => some (s, .thrown)
  | .reset =>
      if !own && s.processor.inGathering then none
      else some ({ s with peerConnection := { s.peerConnection with
        gatheringStateChangeCallback := false, sctpTransport := false } }, .returned)
  | .returned | .thrown => none

/-- The processor starts a task; a callback that is no longer there is not called. -/
def PeerConnection.start (pc : PeerConnection) : Task → Processor
  | .stateChange state => if pc.stateChangeCallback then .stateChange state else .idle
  | .gatheringStateChange state =>
      if pc.gatheringStateChangeCallback then .gathering (.called state) else .idle
  | .remoteClose => .closing (.exchange true)

/-- The gathering-state callback. An exception in it drops `pc` and is caught by the library. -/
def stepGathering (s : State) : Gathering → Option State
  | .called .complete =>
      -- wpc.lock()
      if s.destroyer.gone .peerConnection then some { s with processor := .idle }
      else
        let description := s.peerConnection.localDescription
        match gatheringMessage C s.client.id description.1 description.2 .complete with
        | some message => some { s with processor := .gathering (.pushing message) }
        | none => some { s with processor := .gathering .releasing }
  | .called _ => some { s with processor := .idle }
  | .pushing message => (s.push message).map fun s' => { s' with processor := .gathering .releasing }
  | .releasing =>
      some { s with
        processor :=
          if s.destroyer.gone .peerConnection then .gathering (.destroying (.exchange true)) else .idle }
  | .destroying .returned | .destroying .thrown => some { s with processor := .idle }
  | .destroying c =>
      (stepClosing C true s c).map fun r => { r.1 with processor := .gathering (.destroying r.2) }

/-- `mProcessor`. -/
def stepProcessor (s : State) : Option State :=
  match s.processor with
  | .idle =>
      match s.peerConnection.tasks with
      | [] => none
      | task :: rest =>
          some { s with
            peerConnection := { s.peerConnection with tasks := rest }
            processor := s.peerConnection.start task }
  | .stateChange state =>
      match stateChangeMessage C s.client.id state with
      | some text => (s.push text).map fun s' => { s' with processor := .idle }
      | none => some { s with processor := .idle }
  | .gathering g => stepGathering C s g
  | .closing .returned | .closing .thrown => some { s with processor := .idle }
  | .closing c => (stepClosing C true s c).map fun r => { r.1 with processor := .closing r.2 }

/-- `~Client`. An exception in its body ends the process. -/
def stepDestroyer (s : State) : Option State :=
  match s.destroyer with
  | .body =>
      match s.client.lifetime with
      | .live | .destroyed => none
      | .close => some { s with destroyer := .closing (.exchange false) }
      | .join => s.client.destroy.map fun k => { s with client := k, destroyer := .members members.reverse }
      | _ => s.client.destroy.map fun k => { s with client := k }
  | .closing .returned => s.client.destroy.map fun k => { s with client := k, destroyer := .body }
  | .closing .thrown => none
  | .closing c => (stepClosing C false s c).map fun r => { r.1 with destroyer := .closing r.2 }
  | .members [] => none
  | .members (.peerConnection :: rest) =>
      some { s with
        destroyer := if s.processor.holds then .members rest else .releasing (.exchange true) rest }
  | .members (_ :: rest) => some { s with destroyer := .members rest }
  | .releasing .returned rest | .releasing .thrown rest => some { s with destroyer := .members rest }
  | .releasing c rest => (stepClosing C false s c).map fun r => { r.1 with destroyer := .releasing r.2 rest }

/-- The client's own thread, not its callbacks. -/
def ofThread : ClientAction → Bool
  | .check | .pop | .apply _ => true
  | _ => false

/-- `release` drops the last reference to the client; nobody calls its methods any more. -/
inductive Action
  | destroyer
  | processor
  | event (e : Event)
  | thread (a : ClientAction)
  | signalingSet (message : Bytes)
  | signalingGet (expired : Bool)
  | release

def step (s : State) : Action → Option State
  | .destroyer => stepDestroyer C s
  | .processor => stepProcessor C s
  | .event e => (s.peerConnection.apply e).map fun pc => { s with peerConnection := pc }
  | .thread a =>
      -- an exception in the thread ends the process
      match ofThread a, Streamer.stepClient C s.client a with
      | true, some (k, none) => some { s with client := k }
      | _, _ => none
  | .signalingSet message =>
      if s.client.lifetime = .live then
        (s.client.signalingQueueIn.tryPush message).map fun q =>
          { s with client := { s.client with signalingQueueIn := q } }
      else none
  | .signalingGet expired =>
      if s.client.lifetime = .live then
        (s.client.signalingQueueOut.tryPopFor expired).map fun r =>
          { s with client := { s.client with signalingQueueOut := r.2 } }
      else none
  | .release =>
      if s.client.lifetime = .live then some { s with client := { s.client with lifetime := .setTerm } }
      else none

end Teardown

end WebrtcStreamer
