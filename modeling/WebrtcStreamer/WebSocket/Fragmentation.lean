import WebrtcStreamer.WebSocket.Assembly

/-!
# `WebSocket.Fragmentation` — a message is received whole, however it is cut

A message goes on the wire in one frame, or in several with control frames between them; each frame is masked or
not, and TCP cuts the frames as it likes. What is received is the message, up to the maximal size.

## Contents
- **The wire.** `WireFrame`, a frame that can be sent, with its key; `feed_wire`.
- **Fragments.** `Fragmented`, `assemble_frames`: what `Assembly` makes of the frames of messages.
- **Runs.** `receive_isSome`, every chunk of such a stream can be read; `fragments_received`.
-/

namespace WebrtcStreamer

namespace WebSocket

open Incremental Transition

/-! ## The wire -/

/-- A frame that can be sent: its opcode has four bits, and the first bit of its length is zero. -/
structure WireFrame where
  frame : Frame
  key : MaskingKey
  opcode : frame.opcode.wire = frame.opcode
  length : frame.payload.length < 2 ^ 63

def WireFrame.toBytes (f : WireFrame) : Bytes := f.frame.toBytes f.key

def wire (fs : List WireFrame) : Bytes := fs.flatMap WireFrame.toBytes

/-- A frame as `parseFrame` leaves it. -/
def Frame.truncated (maxMessageSize : ℕ) (f : Frame) : Frame :=
  { f with payload := f.payload.take (maxFrameLength maxMessageSize) }

theorem parse_wire (maxMessageSize : ℕ) (f : WireFrame) (rest : Bytes) :
    (frames maxMessageSize).parse (f.toBytes ++ rest) =
      some (f.frame.truncated maxMessageSize, f.toBytes.length) := by
  have hlen : f.frame.payload.length < 2 ^ 64 := f.length.trans (by decide)
  have hsent := parseFrame_toBytes hlen f.key maxMessageSize rest
  rw [f.opcode] at hsent
  exact hsent

/-- The frames of a stream are read as they have been sent. -/
theorem feed_wire (maxMessageSize : ℕ) (fs : List WireFrame) :
    (frames maxMessageSize).feed .empty (wire fs) =
      (fs.map fun f => f.frame.truncated maxMessageSize, .empty) :=
  Parser.feed_flatMap (P := frames maxMessageSize) rfl (parse_wire maxMessageSize) fs

theorem WireFrame.length_toBytes_lt (f : WireFrame) : f.toBytes.length < 2 ^ 64 := by
  have hheader : f.frame.header.length ≤ 10 := by
    unfold Frame.header
    simp only
    split
    · simp
    · split <;> simp [BigEndian.length_encode]
  have hlen := f.length
  unfold WireFrame.toBytes Frame.toBytes
  split <;> simp only [List.length_append, List.length_ofFn, length_applyMask] <;> omega

/-! ## Fragments -/

/-- A frame that carries a message, or a part of it. -/
def Frame.isData (f : Frame) : Bool :=
  match f.opcode with
  | .textFrame | .binaryFrame | .continuation => true
  | .close | .ping | .pong | .unknown _ => false

structure Fragment where
  payload : Bytes
  mask : Bool

/-- A message in fragments. -/
structure Fragmented where
  type : MessageType
  first : Fragment
  rest : List Fragment

def MessageType.opcode : MessageType → Opcode
  | .string => .textFrame
  | .binary => .binaryFrame

@[simp] theorem typeOf_opcode (type : MessageType) : Session.typeOf type.opcode = type := by
  cases type <;> rfl

def continuations : List Fragment → List Frame
  | [] => []
  | p :: rest => ⟨.continuation, p.payload, rest.isEmpty, p.mask⟩ :: continuations rest

def Fragmented.frames (m : Fragmented) : List Frame :=
  ⟨m.type.opcode, m.first.payload, m.rest.isEmpty, m.first.mask⟩ :: continuations m.rest

/-- The message, up to the size that the receiver takes. -/
def Fragmented.message (maxMessageSize : ℕ) (m : Fragmented) : Message where
  type := m.type
  data := (m.first.payload ++ m.rest.flatMap Fragment.payload).take maxMessageSize

/-- What is beyond the maximal size may be cut off before or behind. -/
theorem take_take_append (max : ℕ) (xs ys : Bytes) : (xs.take max ++ ys).take max = (xs ++ ys).take max := by
  rw [List.take_append, List.take_append, List.take_take, Nat.min_self, List.length_take]
  congr 2
  omega

theorem take_append_take {max n : ℕ} (h : max ≤ n) (xs ys : Bytes) :
    (xs ++ ys.take n).take max = (xs ++ ys).take max := by
  rw [List.take_append, List.take_append, List.take_take]
  congr 2
  omega

/-- The truncation of a frame makes no difference to the message. -/
theorem frame_truncated (max : ℕ) (a : Assembly) (f : Frame) : a.frame max (f.truncated max) = a.frame max f := by
  have hle : max ≤ maxFrameLength max := Nat.le_max_right _ _
  have hfirst : (f.payload.take (maxFrameLength max)).take max = f.payload.take max := by
    rw [List.take_take, Nat.min_eq_left hle]
  simp only [Assembly.frame, Frame.truncated, hfirst, take_append_take hle]

theorem frames_truncated (max : ℕ) (a : Assembly) (fs : List Frame) :
    a.frames max (fs.map (Frame.truncated max)) = a.frames max fs := by
  induction fs generalizing a with
  | nil => rfl
  | cons f fs ih =>
      show (a.frame max (f.truncated max)).frames max (fs.map (Frame.truncated max)) = (a.frame max f).frames max fs
      rw [frame_truncated]
      exact ih _

/-- Control frames come between the fragments, and make no difference. -/
theorem frames_filter {max : ℕ} {fs : List Frame} (hclose : ∀ f ∈ fs, f.opcode ≠ .close) (a : Assembly) :
    a.frames max (fs.filter Frame.isData) = a.frames max fs := by
  induction fs generalizing a with
  | nil => rfl
  | cons f fs ih =>
      have hrest := ih fun g hg => hclose g (List.mem_cons_of_mem f hg)
      have hcons : a.frames max (f :: fs) = (a.frame max f).frames max fs := rfl
      have hcontrol : f.isData = false → a.frames max ((f :: fs).filter Frame.isData) = a.frames max (f :: fs) := by
        intro hfalse
        have hop : f.opcode = .ping ∨ f.opcode = .pong ∨ ∃ code, f.opcode = .unknown code := by
          cases hop : f.opcode with
          | close => exact absurd hop (hclose f (List.mem_cons_self ..))
          | ping => exact .inl rfl
          | pong => exact .inr (.inl rfl)
          | unknown code => exact .inr (.inr ⟨code, rfl⟩)
          | textFrame => simp [Frame.isData, hop] at hfalse
          | binaryFrame => simp [Frame.isData, hop] at hfalse
          | continuation => simp [Frame.isData, hop] at hfalse
        rw [List.filter_cons, if_neg (by rw [hfalse]; decide), hcons, frame_control a hop]
        exact hrest a
      cases hdata : f.isData with
      | true =>
          rw [List.filter_cons, if_pos hdata, hcons]
          exact hrest _
      | false => exact hcontrol hdata

/-- The fragments of a message, behind what has been put together of it. -/
theorem frames_continuations {max : ℕ} (a : Assembly) (hopen : a.closed = false) {data : Bytes}
    (hdata : a.fragments = data.take max) {rest : List Fragment} (hne : rest ≠ []) :
    a.frames max (continuations rest) =
      { a with
        fragments := []
        messages := a.messages ++
          [{ type := Session.typeOf a.opcode, data := (data ++ rest.flatMap Fragment.payload).take max }] } := by
  induction rest generalizing a data with
  | nil => exact absurd rfl hne
  | cons p rest ih =>
      have hpart : (a.fragments ++ p.payload).take max = (data ++ p.payload).take max := by
        rw [hdata, take_take_append]
      have hcons : a.frames max (continuations (p :: rest)) =
          (a.frame max ⟨.continuation, p.payload, rest.isEmpty, p.mask⟩).frames max (continuations rest) := rfl
      have hflat : data ++ (p :: rest).flatMap Fragment.payload =
          data ++ p.payload ++ rest.flatMap Fragment.payload := by
        rw [List.flatMap_cons, List.append_assoc]
      rw [hcons, hflat]
      cases rest with
      | nil =>
          rw [List.flatMap_nil, List.append_nil, ← hpart]
          simp only [Assembly.frame, hopen, continuations, List.isEmpty_nil, Bool.false_eq_true, if_false, if_true]
          rfl
      | cons q rest =>
          have hframe : a.frame max ⟨.continuation, p.payload, (q :: rest).isEmpty, p.mask⟩ =
              { a with fragments := (data ++ p.payload).take max } := by
            rw [← hpart]
            simp only [Assembly.frame, hopen, List.isEmpty_cons, Bool.false_eq_true, if_false, List.append_nil]
          rw [hframe]
          exact ih { a with fragments := (data ++ p.payload).take max } hopen rfl (List.cons_ne_nil _ _)

/-- **One message**, behind a message that is finished. -/
theorem frames_fragmented {max : ℕ} (a : Assembly) (hopen : a.closed = false) (hempty : a.fragments = [])
    (m : Fragmented) :
    a.frames max m.frames =
      { a with opcode := m.type.opcode, messages := a.messages ++ [m.message max] } := by
  have hcons : a.frames max m.frames =
      (a.frame max ⟨m.type.opcode, m.first.payload, m.rest.isEmpty, m.first.mask⟩).frames max
        (continuations m.rest) := rfl
  have hframe : a.frame max ⟨m.type.opcode, m.first.payload, m.rest.isEmpty, m.first.mask⟩ =
      { a with
        opcode := m.type.opcode
        fragments := if m.rest.isEmpty then [] else m.first.payload.take max
        messages := a.messages ++
          if m.rest.isEmpty then [{ type := m.type, data := m.first.payload.take max }] else [] } := by
    cases htype : m.type <;>
      simp only [Assembly.frame, hopen, hempty, MessageType.opcode, Bool.false_eq_true, if_false, if_true,
        List.append_nil] <;> rfl
  rw [hcons, hframe]
  cases hrest : m.rest with
  | nil =>
      have hmessage : m.message max = { type := m.type, data := m.first.payload.take max } := by
        rw [Fragmented.message, hrest, List.flatMap_nil, List.append_nil]
      rw [hmessage]
      obtain ⟨opcode, fragments, closed, messages⟩ := a
      obtain rfl : fragments = [] := hempty
      rfl
  | cons p rest =>
      have hmessage : m.message max =
          { type := m.type, data := (m.first.payload ++ (p :: rest).flatMap Fragment.payload).take max } := by
        rw [Fragmented.message, hrest]
      simp only [List.isEmpty_cons, Bool.false_eq_true, if_false, List.append_nil]
      have hrest := @frames_continuations max
        { a with opcode := m.type.opcode, fragments := m.first.payload.take max } hopen m.first.payload rfl
        (p :: rest) (List.cons_ne_nil p rest)
      rw [hrest, hmessage, typeOf_opcode, hempty]

/-- **The messages of a stream.** -/
theorem assemble_frames {max : ℕ} (ms : List Fragmented) (a : Assembly) (hopen : a.closed = false)
    (hempty : a.fragments = []) :
    (a.frames max (ms.flatMap Fragmented.frames)).messages = a.messages ++ ms.map (Fragmented.message max) := by
  induction ms generalizing a with
  | nil => exact (List.append_nil _).symm
  | cons m ms ih =>
      have hsplit : a.frames max ((m :: ms).flatMap Fragmented.frames) =
          (a.frames max m.frames).frames max (ms.flatMap Fragmented.frames) := by
        rw [List.flatMap_cons]
        exact List.foldl_append
      have hrest := ih { a with opcode := m.type.opcode, messages := a.messages ++ [m.message max] } hopen hempty
      rw [hsplit, frames_fragmented a hopen hempty, hrest, List.map_cons, List.append_assoc]
      rfl

/-! ## Runs -/

variable {c : Config} {h : WsHandshake} {opcode : Opcode} {bytes stream : Bytes}

/-- The stream of messages in fragments means these messages. -/
theorem meaning_fragments (hbehind : behindHandshake c h bytes = some stream) {fs : List WireFrame}
    {ms : List Fragmented} (hdata : (fs.map WireFrame.frame).filter Frame.isData = ms.flatMap Fragmented.frames)
    (hclose : ∀ f ∈ fs, f.frame.opcode ≠ .close) (hstream : stream = wire fs) :
    (meaning c h opcode bytes).messages = ms.map (Fragmented.message c.maxMessageSize) := by
  have hmap : (fs.map fun f => f.frame.truncated c.maxMessageSize) =
      (fs.map WireFrame.frame).map (Frame.truncated c.maxMessageSize) := by
    rw [List.map_map]
    rfl
  have hopen : ∀ f ∈ fs.map WireFrame.frame, f.opcode ≠ .close := by
    intro f hf
    obtain ⟨g, hg, rfl⟩ := List.mem_map.mp hf
    exact hclose g hg
  rw [meaning, hbehind, hstream]
  simp only [feed_wire]
  rw [hmap, frames_truncated, ← frames_filter hopen, hdata, assemble_frames ms _ rfl rfl]
  rfl

/-- A part of the stream means a beginning of them. -/
theorem meaning_part (hbehind : behindHandshake c h bytes = some stream) {fs : List WireFrame}
    {ms : List Fragmented} (hdata : (fs.map WireFrame.frame).filter Frame.isData = ms.flatMap Fragmented.frames)
    (hclose : ∀ f ∈ fs, f.frame.opcode ≠ .close) (hpart : stream <+: wire fs) :
    (meaning c h opcode bytes).messages <+: ms.map (Fragmented.message c.maxMessageSize) := by
  obtain ⟨more, hmore⟩ := hpart
  have hall : (meaning c h opcode (bytes ++ more)).messages = ms.map (Fragmented.message c.maxMessageSize) :=
    meaning_fragments (behindHandshake_append hbehind more) hdata hclose hmore
  rw [← hall]
  exact meaning_grows h opcode bytes more

/-- A chunk of such a stream fits: the transport refuses nothing of what another side can send. -/
theorem fits_wire {t : WsTransport} (ht : Tracks c h opcode bytes t) {chunk : Bytes} {fs : List WireFrame}
    (hpart : ∀ stream, behindHandshake c h (bytes ++ chunk) = some stream → stream <+: wire fs) :
    t.fits c chunk = true := by
  have hwithin : ∀ {gs : List WireFrame} {xs : Bytes}, xs <+: wire gs → ∀ k,
      (frames c.maxMessageSize).within (2 ^ 64) k xs = true := fun hxs k =>
    Parser.within_part (P := frames c.maxMessageSize) rfl (parse_wire c.maxMessageSize)
      (fun g _ => g.length_toBytes_lt) hxs k
  unfold WsTransport.fits
  by_cases hconnecting : t.session.state = .connecting
  · obtain ⟨hsame, hinput, -⟩ := ht.reads.connecting hconnecting
    have hbuffer : t.input.insert chunk = ⟨bytes ++ chunk, 0⟩ := by
      rw [hinput]
      rfl
    have hwaiting : (decide (t.session.state ≠ .connected)) = true := by
      rw [hconnecting]
      decide
    have hcases := handshake_cases (c := c) (t := { t with input := t.input.insert chunk }) hconnecting
    simp only [hbuffer, hsame] at hcases ⊢
    split at hcases
    · simp only [hcases, hwaiting, Bool.true_or]
    · simp only [hcases, hwaiting, Bool.true_or]
    · rename_i h' n hdone
      obtain ⟨h'', heq | ⟨e, heq⟩⟩ := hcases
      -- What is behind the handshake is the beginning of the stream.
      · have hbehind : behindHandshake c h (bytes ++ chunk) = some ((bytes ++ chunk).drop n) := by
          rw [behindHandshake, hdone]
        simp only [heq, Pending.discard_eq, List.drop_zero]
        rw [hwithin (hpart _ hbehind), Bool.or_true]
      · simp only [heq, hwaiting, Bool.true_or]
  · rw [WsTransport.handshake, if_pos hconnecting]
    by_cases hconnected : t.session.state = .connected
    · obtain ⟨stream, hbehind, hinput⟩ := ht.reads.connected hconnected
      have hall := hpart _ (behindHandshake_append hbehind chunk)
      have hfeed : (frames c.maxMessageSize).feed .empty stream =
          (frames c.maxMessageSize).drain (stream.length + 1) stream :=
        Parser.feed_of_le (Nat.zero_le _) (by show 0 + _ < _ + 0; omega)
      obtain ⟨gs, -, hrest⟩ := Parser.drain_part (P := frames c.maxMessageSize) rfl (parse_wire c.maxMessageSize)
        (Nat.lt_succ_self stream.length) ((List.prefix_append stream chunk).trans hall)
      have hdrop := hrest chunk hall
      rw [← hfeed, ← hinput] at hdrop
      -- What is left of the frame before is gone; frames follow.
      simp only [Pending.discard_eq, Pending.insert]
      rw [hwithin hdrop, Bool.or_true]
    · simp [hconnected]

/-- **A chunk of such a stream is read.** In every run that has read a part of the stream of some frames, each of
    less than 2^63 bytes, the next chunk of it can be received as long as the TCP connection is there. -/
theorem receive_isSome {random : Bytes} {tcp : TcpTransport} {as : List WsTransport.Action} {t : WsTransport}
    (hrun : exec (WsTransport.step c) (WsTransport.start c h opcode random tcp) as = some t)
    (htcp : t.session.tcp.state = .connected) {chunk : Bytes} (hne : chunk ≠ []) {fs : List WireFrame}
    (hpart : ∀ stream, behindHandshake c (WsTransport.start c h opcode random tcp).session.mHandshake
      (trace (WsTransport.step c) fed (WsTransport.start c h opcode random tcp) as ++ chunk) = some stream →
        stream <+: wire fs) :
    (WsTransport.step c t (.receive chunk)).isSome := by
  have hfits := fits_wire (exec_tracks hrun) hpart
  have hguard : t.session.tcp.state = .connected ∧ chunk ≠ [] ∧ t.fits c chunk = true := ⟨htcp, hne, hfits⟩
  rw [WsTransport.step, if_pos hguard]
  rfl

/-- **A message is received whole.** Let the other side send messages, each in one frame or in fragments, masked or
    not, with any control frames but a close frame between them. In every run that reads a part of this, the
    messages that are received are the first of these, truncated to the maximal size; when all of it has been read,
    they are all of them, unless the `WebSocket` has been closed here. -/
theorem fragments_received {random : Bytes} {tcp : TcpTransport} {as : List WsTransport.Action} {t : WsTransport}
    (hrun : exec (WsTransport.step c) (WsTransport.start c h opcode random tcp) as = some t)
    (hbehind : behindHandshake c (WsTransport.start c h opcode random tcp).session.mHandshake
      (trace (WsTransport.step c) fed (WsTransport.start c h opcode random tcp) as) = some stream)
    {fs : List WireFrame} {ms : List Fragmented}
    (hdata : (fs.map WireFrame.frame).filter Frame.isData = ms.flatMap Fragmented.frames)
    (hclose : ∀ f ∈ fs, f.frame.opcode ≠ .close) (hpart : stream <+: wire fs) :
    t.session.received <+: ms.map (Fragmented.message c.maxMessageSize) ∧
      (stream = wire fs → t.session.webSocket ≠ .closed →
        t.session.received = ms.map (Fragmented.message c.maxMessageSize)) := by
  have htracks := exec_tracks hrun
  refine ⟨htracks.follows.received.trans (meaning_part hbehind hdata hclose hpart), fun hall hopen => ?_⟩
  exact (congrArg Assembly.messages (htracks.follows.live hopen).1).trans
    (meaning_fragments hbehind hdata hclose hall)

/-- The frames of `hello`. -/
def helloFrames : List WireFrame :=
  [⟨⟨.textFrame, str "Hel", false, false⟩, ![0, 0, 0, 0], rfl, by decide⟩,
    ⟨⟨.ping, [], true, false⟩, ![0, 0, 0, 0], rfl, by decide⟩,
    ⟨⟨.continuation, str "lo", true, false⟩, ![0, 0, 0, 0], rfl, by decide⟩]

theorem fragments_received_hello :
    ∃ t, exec (WsTransport.step fourBytes) connecting hello = some t ∧
      t.session.received = [⟨.string, str "Hell"⟩] := by
  have hrun : ((exec (WsTransport.step fourBytes) connecting hello).any fun t => t.session.webSocket == .opened) =
      true := by
    decide +kernel
  obtain ⟨t, ht, hopen⟩ := (Option.any_eq_true _ _).mp hrun
  have hbehind : behindHandshake fourBytes connecting.session.mHandshake
      (trace (WsTransport.step fourBytes) fed connecting hello) = some (wire helloFrames) := by
    decide +kernel
  have hdata : (helloFrames.map WireFrame.frame).filter Frame.isData =
      [⟨.string, ⟨str "Hel", false⟩, [⟨str "lo", false⟩]⟩].flatMap Fragmented.frames := by
    decide
  have hclose : ∀ f ∈ helloFrames, f.frame.opcode ≠ .close := by decide
  refine ⟨t, ht, (fragments_received ht hbehind hdata hclose List.prefix_rfl).2 rfl ?_⟩
  rw [eq_of_beq hopen]
  decide

end WebSocket

end WebrtcStreamer
