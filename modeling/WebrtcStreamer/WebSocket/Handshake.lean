import Mathlib.Algebra.Order.Ring.Int
import WebrtcStreamer.Lib.Json

/-!
# `WebSocket.Handshake` — the HTTP handshake (libdatachannel's `wshandshake.cpp`, `http.cpp`)

The client sends a request and the server answers it, each at the front of what it sends. Either is read when it
has come in up to its empty line; what is behind that line belongs to the frames.

The hash of the accept key is a parameter, `sha1`; the random bytes of a key are given.
-/

namespace WebrtcStreamer

namespace WebSocket

/-! ## Lines -/

def cr : UInt8 := 0x0D

def lf : UInt8 := 0x0A

def space : UInt8 := 0x20

def colon : UInt8 := 0x3A

def comma : UInt8 := 0x2C

def crlf : Bytes := [cr, lf]

/-- The loop of `isHttpRequest`, from the byte `i` on. -/
def startsWithMethod : ℕ → Bytes → Bool
  | _, [] => true
  | i, c :: rest =>
      if 0 < i ∧ c = space then true
      else if 8 ≤ i ∨ c < 0x41 ∨ 0x5A < c then false
      else startsWithMethod (i + 1) rest

def isHttpRequest (buffer : Bytes) : Bool := startsWithMethod 0 buffer

/-- The line without a `\r` at its end. -/
def stripCr (line : Bytes) : Bytes := if line.getLast? = some cr then line.dropLast else line

/-- The loop of `parseHttpLines`, in the middle of a `line`: the lines up to the empty one, and what is behind it. -/
def httpLines : Bytes → Bytes → Option (List Bytes × Bytes)
  | _, [] => none
  | line, b :: cur =>
      if b = lf then
        if stripCr line = [] then some ([], cur)
        else (httpLines [] cur).map fun (lines, cur) => (stripCr line :: lines, cur)
      else httpLines (line ++ [b]) cur

/-- `parseHttpLines`: the lines and the length, `none` where it returns 0. -/
def parseHttpLines (buffer : Bytes) : Option (List Bytes × ℕ) :=
  (httpLines [] buffer).map fun (lines, cur) => (lines, buffer.length - cur.length)

def tolower (c : UInt8) : UInt8 := if 0x41 ≤ c ∧ c ≤ 0x5A then c + 0x20 else c

def parseHttpHeader (line : Bytes) : Bytes × Bytes :=
  match line.dropWhile (· != colon) with
  | [] => (line, [])
  | _ :: value => ((line.takeWhile (· != colon)).map tolower, value.dropWhile (· == space))

/-- `parseHttpHeaders`; the first header of a name is the one that `find` returns. -/
def parseHttpHeaders (lines : List Bytes) : List (Bytes × Bytes) := lines.map parseHttpHeader

/-! ## Words and lists -/

def isSpace (c : UInt8) : Bool := c == space || decide (0x09 ≤ c ∧ c ≤ 0x0D)

/-- `>>` into a string: the word, and the rest of the line. -/
def nextWord (line : Bytes) : Bytes × Bytes :=
  let line := line.dropWhile isSpace
  (line.takeWhile fun c => !isSpace c, line.dropWhile fun c => !isSpace c)

def isDigit (c : UInt8) : Bool := decide (0x30 ≤ c ∧ c ≤ 0x39)

/-- `>>` into an `unsigned int`. -/
def nextUnsigned (line : Bytes) : ℕ :=
  let line := line.dropWhile isSpace
  let negative := line.head? == some 0x2D
  let digits := (if negative ∨ line.head? = some 0x2B then line.tail else line).takeWhile isDigit
  let value := digits.foldl (fun n d => n * 10 + (d.toNat - 0x30)) 0
  if 2 ^ 32 ≤ value then 2 ^ 32 - 1 else if negative then (2 ^ 32 - value) % 2 ^ 32 else value

/-- The loop of `explode`, in the middle of a token: nothing is left of a token without a character at the end. -/
def explodeLoop (delim : UInt8) : Bytes → Bytes → List Bytes
  | token, [] => if token = [] then [] else [token]
  | token, c :: rest =>
      if c = delim then token :: explodeLoop delim [] rest else explodeLoop delim (token ++ [c]) rest

def explode (s : Bytes) (delim : UInt8) : List Bytes := explodeLoop delim [] s

def implode (tokens : List Bytes) (delim : UInt8) : Bytes := (tokens.flatMap fun token => token ++ [delim]).dropLast

def base64Tab : Bytes := str "ABCDEFGHIJKLMNOPQRSTUVWXYZabcdefghijklmnopqrstuvwxyz0123456789+/"

def base64Digit (d : UInt8) : UInt8 := base64Tab.getD d.toNat 0

def base64Encode : Bytes → Bytes
  | d₀ :: d₁ :: d₂ :: data =>
      [base64Digit (d₀ >>> 2), base64Digit (((d₀ &&& 3) <<< 4) ||| (d₁ >>> 4)),
        base64Digit (((d₁ &&& 0x0F) <<< 2) ||| (d₂ >>> 6)), base64Digit (d₂ &&& 0x3F)] ++ base64Encode data
  | [d₀, d₁] =>
      [base64Digit (d₀ >>> 2), base64Digit (((d₀ &&& 3) <<< 4) ||| (d₁ >>> 4)), base64Digit ((d₁ &&& 0x0F) <<< 2),
        0x3D]
  | [d₀] => [base64Digit (d₀ >>> 2), base64Digit ((d₀ &&& 3) <<< 4), 0x3D, 0x3D]
  | [] => []

/-! ## The handshake -/

structure WsHandshake where
  mHost : Bytes
  mPath : Bytes
  mProtocols : List Bytes
  mKey : Bytes
deriving DecidableEq

/-- The exceptions; `runtimeError` is none of the handshake's own. -/
inductive WsError
  | requestError (what : Bytes) (responseCode : ℕ)
  | error (what : Bytes)
  | runtimeError (what : Bytes)
deriving DecidableEq

/-- The handshake of a server, before it has read a request. -/
def WsHandshake.empty : WsHandshake where
  mHost := []
  mPath := []
  mProtocols := []
  mKey := []

/-- The constructor of a client's handshake, which throws if the host or the path is empty. -/
def WsHandshake.new (host path : Bytes) (protocols : List Bytes) : Option WsHandshake :=
  if host = [] ∨ path = [] then none
  else some { mHost := host, mPath := path, mProtocols := protocols, mKey := [] }

def generateKey (random : Bytes) : Bytes := base64Encode random

def computeAcceptKey (sha1 : Bytes → Bytes) (key : Bytes) : Bytes :=
  base64Encode (sha1 (key ++ str "258EAFA5-E914-47DA-95CA-C5AB0DC85B11"))

def protocolLines (protocols : List Bytes) : List Bytes :=
  if protocols = [] then [] else [str "Sec-WebSocket-Protocol: " ++ implode protocols comma]

/-- Each line with its end, and an empty line. -/
def httpText (lines : List Bytes) : Bytes := (lines.flatMap fun line => line ++ crlf) ++ crlf

def WsHandshake.requestLines (h : WsHandshake) : List Bytes :=
  [str "GET " ++ h.mPath ++ str " HTTP/1.1",
    str "Host: " ++ h.mHost,
    str "Connection: Upgrade",
    str "Upgrade: websocket",
    str "Sec-WebSocket-Version: 13",
    str "Sec-WebSocket-Key: " ++ h.mKey] ++ protocolLines h.mProtocols

/-- `generateHttpRequest`, which first draws the key. -/
def generateHttpRequest (h : WsHandshake) (random : Bytes) : WsHandshake × Bytes :=
  let h := { h with mKey := generateKey random }
  (h, httpText h.requestLines)

def WsHandshake.responseLines (sha1 : Bytes → Bytes) (h : WsHandshake) : List Bytes :=
  [str "HTTP/1.1 101 Switching Protocols",
    str "Server: libdatachannel",
    str "Connection: Upgrade",
    str "Upgrade: websocket",
    str "Sec-WebSocket-Accept: " ++ computeAcceptKey sha1 h.mKey] ++ protocolLines h.mProtocols

def generateHttpResponse (sha1 : Bytes → Bytes) (h : WsHandshake) : Bytes := httpText (h.responseLines sha1)

def getHttpErrorName (responseCode : ℕ) : Bytes :=
  if responseCode = 400 then str "Bad Request"
  else if responseCode = 404 then str "Not Found"
  else if responseCode = 405 then str "Method Not Allowed"
  else if responseCode = 426 then str "Upgrade Required"
  else if responseCode = 500 then str "Internal Server Error"
  else str "Error"

def generateHttpError (responseCode : ℕ) : Bytes :=
  let error := str (toString responseCode) ++ str " " ++ getHttpErrorName responseCode
  httpText
    [str "HTTP/1.1 " ++ error,
      str "Server: libdatachannel",
      str "Content-Type: text/plain",
      str "Content-Length: " ++ str (toString error.length),
      str "Access-Control-Allow-Origin: *"] ++ error

/-- What `parseHttpRequest` makes of the lines. -/
def WsHandshake.readRequest (h : WsHandshake) : List Bytes → Except WsError WsHandshake
  | [] => .error (.requestError (str "Invalid HTTP request for WebSocket") 400)
  | requestLine :: lines =>
      let (method, rest) := nextWord requestLine
      let (path, _) := nextWord rest
      let headers := parseHttpHeaders lines
      if method ≠ str "GET" then
        .error (.requestError (str "Invalid request method \"" ++ method ++ str "\" for WebSocket") 405)
      else
        match headers.lookup (str "host") with
        | none => .error (.requestError (str "WebSocket host header missing in request") 400)
        | some host =>
            match headers.lookup (str "upgrade") with
            | none => .error (.requestError (str "WebSocket upgrade header missing in request") 426)
            | some upgrade =>
                if upgrade.map tolower ≠ str "websocket" then
                  .error (.requestError (str "WebSocket upgrade header mismatching") 426)
                else
                  match headers.lookup (str "sec-websocket-key") with
                  | none => .error (.requestError (str "WebSocket key header missing in request") 400)
                  | some key =>
                      .ok
                        { mHost := host
                          mPath := path
                          mProtocols := match headers.lookup (str "sec-websocket-protocol") with
                            | some protocols => explode protocols comma
                            | none => h.mProtocols
                          mKey := key }

/-- `parseHttpRequest`: the handshake and the length of the request, `none` while it is not complete. What the
    handshake keeps of a request that is refused is left out. -/
def parseHttpRequest (h : WsHandshake) (buffer : Bytes) : Except WsError (Option (WsHandshake × ℕ)) :=
  if isHttpRequest buffer = false then
    .error (.requestError (str "Invalid HTTP request for WebSocket") 400)
  else
    match parseHttpLines buffer with
    | none => .ok none
    | some (lines, length) => (h.readRequest lines).map fun h => some (h, length)

/-- What `parseHttpResponse` makes of the lines. -/
def WsHandshake.readResponse (sha1 : Bytes → Bytes) (h : WsHandshake) : List Bytes → Except WsError Unit
  | [] => .error (.error (str "Invalid HTTP response for WebSocket"))
  | status :: lines =>
      let (_, rest) := nextWord status
      let code := nextUnsigned rest
      let headers := parseHttpHeaders lines
      if code ≠ 101 then
        .error (.runtimeError (str "Unexpected response code " ++ str (toString code) ++ str " for WebSocket"))
      else
        match headers.lookup (str "upgrade") with
        | none => .error (.error (str "WebSocket update header missing"))
        | some upgrade =>
            if upgrade.map tolower ≠ str "websocket" then
              .error (.error (str "WebSocket update header mismatching"))
            else
              match headers.lookup (str "sec-websocket-accept") with
              | none => .error (.error (str "WebSocket accept header missing"))
              | some accept =>
                  if accept ≠ computeAcceptKey sha1 h.mKey then
                    .error (.error (str "WebSocket accept header is invalid"))
                  else .ok ()

def parseHttpResponse (sha1 : Bytes → Bytes) (h : WsHandshake) (buffer : Bytes) :
    Except WsError (Option (WsHandshake × ℕ)) :=
  match parseHttpLines buffer with
  | none => .ok none
  | some (lines, length) => (h.readResponse sha1 lines).map fun _ => some (h, length)

/-! ## A complete text stays complete -/

theorem httpLines_append {line buffer cur : Bytes} {lines : List Bytes} (h : httpLines line buffer = some (lines, cur))
    (more : Bytes) : httpLines line (buffer ++ more) = some (lines, cur ++ more) := by
  induction buffer generalizing line lines with
  | nil => cases h
  | cons b buffer ih =>
      rw [List.cons_append, httpLines]
      rw [httpLines] at h
      split at h
      · rw [if_pos ‹_›]
        split at h
        · rw [if_pos ‹_›]
          obtain ⟨rfl, rfl⟩ := Prod.mk.inj (Option.some.inj h)
          rfl
        · rw [if_neg ‹_›]
          obtain ⟨⟨lines', cur'⟩, hrest, heq⟩ := Option.map_eq_some_iff.mp h
          obtain ⟨rfl, rfl⟩ := Prod.mk.inj heq
          rw [ih hrest]
          rfl
      · rw [if_neg ‹_›]
        exact ih h

theorem length_httpLines {line buffer cur : Bytes} {lines : List Bytes}
    (h : httpLines line buffer = some (lines, cur)) :
    cur.length < buffer.length := by
  induction buffer generalizing line lines with
  | nil => cases h
  | cons b buffer ih =>
      rw [httpLines] at h
      rw [List.length_cons]
      split at h
      · split at h
        · obtain ⟨-, rfl⟩ := Prod.mk.inj (Option.some.inj h)
          exact Nat.lt_succ_self _
        · obtain ⟨⟨lines', cur'⟩, hrest, heq⟩ := Option.map_eq_some_iff.mp h
          obtain ⟨-, rfl⟩ := Prod.mk.inj heq
          exact Nat.lt_succ_of_lt (ih hrest)
      · exact Nat.lt_succ_of_lt (ih h)

theorem parseHttpLines_append {buffer : Bytes} {lines : List Bytes} {n : ℕ}
    (h : parseHttpLines buffer = some (lines, n)) (more : Bytes) :
    parseHttpLines (buffer ++ more) = some (lines, n) := by
  obtain ⟨⟨lines', cur⟩, hlines, heq⟩ := Option.map_eq_some_iff.mp h
  obtain ⟨rfl, rfl⟩ := Prod.mk.inj heq
  have hlen : cur.length ≤ buffer.length := Nat.le_of_lt (length_httpLines hlines)
  have hsub : (buffer ++ more).length - (cur ++ more).length = buffer.length - cur.length := by
    simp only [List.length_append]
    omega
  rw [parseHttpLines, httpLines_append hlines]
  exact congrArg (fun n => some (lines', n)) hsub

/-- The length of a text is not 0, and it is there. -/
theorem parseHttpLines_length {buffer : Bytes} {lines : List Bytes} {n : ℕ}
    (h : parseHttpLines buffer = some (lines, n)) : 0 < n ∧ n ≤ buffer.length := by
  obtain ⟨⟨lines', cur⟩, hlines, heq⟩ := Option.map_eq_some_iff.mp h
  obtain ⟨-, rfl⟩ := Prod.mk.inj heq
  have hlen := length_httpLines hlines
  omega

theorem startsWithMethod_of_append {i : ℕ} {buffer more : Bytes} (h : startsWithMethod i (buffer ++ more) = true) :
    startsWithMethod i buffer = true := by
  induction buffer generalizing i with
  | nil => rfl
  | cons c buffer ih =>
      rw [List.cons_append, startsWithMethod] at h
      rw [startsWithMethod]
      split at h
      · rw [if_pos ‹_›]
      · rw [if_neg ‹_›]
        split at h
        · cases h
        · rw [if_neg ‹_›]
          exact ih h

/-- A method is behind a space or has no end yet, and a line has an end. -/
theorem startsWithMethod_append {i : ℕ} {buffer : Bytes} (h : startsWithMethod i buffer = true) (hlf : lf ∈ buffer)
    (more : Bytes) : startsWithMethod i (buffer ++ more) = true := by
  induction buffer generalizing i with
  | nil => cases hlf
  | cons c buffer ih =>
      rw [List.cons_append, startsWithMethod]
      rw [startsWithMethod] at h
      split at h
      · rw [if_pos ‹_›]
      · rw [if_neg ‹_›]
        split at h
        · cases h
        · rw [if_neg ‹_›]
          refine ih h ((List.mem_cons.mp hlf).resolve_left ?_)
          rintro rfl
          exact ‹¬ (8 ≤ i ∨ lf < 0x41 ∨ 0x5A < lf)› (.inr (.inl (by decide)))

theorem lf_mem_of_httpLines {line buffer cur : Bytes} {lines : List Bytes}
    (h : httpLines line buffer = some (lines, cur)) : lf ∈ buffer := by
  induction buffer generalizing line with
  | nil => cases h
  | cons b buffer ih =>
      rw [httpLines] at h
      split at h
      · exact List.mem_cons.mpr (.inl ‹b = lf›.symm)
      · exact List.mem_cons_of_mem b (ih h)

theorem parseHttpRequest_eq_some {h h' : WsHandshake} {buffer : Bytes} {n : ℕ} :
    parseHttpRequest h buffer = .ok (some (h', n)) ↔
      isHttpRequest buffer = true ∧
        ∃ lines, parseHttpLines buffer = some (lines, n) ∧ h.readRequest lines = .ok h' := by
  unfold parseHttpRequest
  cases isHttpRequest buffer with
  | false => simp
  | true =>
      cases parseHttpLines buffer with
      | none => simp
      | some parsed =>
          obtain ⟨lines, n'⟩ := parsed
          cases hread : h.readRequest lines with
          | error e => simp [Except.map, hread]
          | ok h'' =>
              simp only [Bool.true_eq_false, if_false, Except.map, hread, Except.ok.injEq, Option.some.injEq,
                Prod.mk.injEq, true_and]
              constructor
              · rintro ⟨rfl, rfl⟩
                exact ⟨lines, ⟨rfl, rfl⟩, hread⟩
              · rintro ⟨lines', ⟨rfl, rfl⟩, hread'⟩
                rw [hread] at hread'
                exact ⟨Except.ok.inj hread', rfl⟩

theorem parseHttpRequest_eq_none {h : WsHandshake} {buffer : Bytes} :
    parseHttpRequest h buffer = .ok none ↔ isHttpRequest buffer = true ∧ parseHttpLines buffer = none := by
  unfold parseHttpRequest
  cases isHttpRequest buffer with
  | false => simp
  | true =>
      cases parseHttpLines buffer with
      | none => simp
      | some parsed =>
          obtain ⟨lines, n⟩ := parsed
          cases hread : h.readRequest lines <;> simp [Except.map, hread]

theorem parseHttpResponse_eq_some {sha1 : Bytes → Bytes} {h h' : WsHandshake} {buffer : Bytes} {n : ℕ} :
    parseHttpResponse sha1 h buffer = .ok (some (h', n)) ↔
      h' = h ∧ ∃ lines, parseHttpLines buffer = some (lines, n) ∧ h.readResponse sha1 lines = .ok () := by
  unfold parseHttpResponse
  cases parseHttpLines buffer with
  | none => simp
  | some parsed =>
      obtain ⟨lines, n'⟩ := parsed
      cases hread : h.readResponse sha1 lines with
      | error e => simp [Except.map, hread]
      | ok _ =>
          simp only [Except.map, hread, Except.ok.injEq, Option.some.injEq, Prod.mk.injEq]
          constructor
          · rintro ⟨rfl, rfl⟩
            exact ⟨rfl, lines, ⟨rfl, rfl⟩, hread⟩
          · rintro ⟨rfl, lines', ⟨rfl, rfl⟩, -⟩
            exact ⟨rfl, rfl⟩

theorem parseHttpResponse_eq_none {sha1 : Bytes → Bytes} {h : WsHandshake} {buffer : Bytes} :
    parseHttpResponse sha1 h buffer = .ok none ↔ parseHttpLines buffer = none := by
  unfold parseHttpResponse
  cases parseHttpLines buffer with
  | none => simp
  | some parsed =>
      obtain ⟨lines, n⟩ := parsed
      cases hread : h.readResponse sha1 lines <;> simp [Except.map, hread]

/-- **A complete request stays complete**, whatever comes behind it. -/
theorem parseHttpRequest_append {h h' : WsHandshake} {buffer : Bytes} {n : ℕ}
    (hparse : parseHttpRequest h buffer = .ok (some (h', n))) (more : Bytes) :
    parseHttpRequest h (buffer ++ more) = .ok (some (h', n)) := by
  obtain ⟨hmethod, lines, hlines, hread⟩ := parseHttpRequest_eq_some.mp hparse
  obtain ⟨⟨lines', cur⟩, hloop, -⟩ := Option.map_eq_some_iff.mp hlines
  exact parseHttpRequest_eq_some.mpr
    ⟨startsWithMethod_append hmethod (lf_mem_of_httpLines hloop) more, lines, parseHttpLines_append hlines more, hread⟩

theorem parseHttpResponse_append {sha1 : Bytes → Bytes} {h h' : WsHandshake} {buffer : Bytes} {n : ℕ}
    (hparse : parseHttpResponse sha1 h buffer = .ok (some (h', n))) (more : Bytes) :
    parseHttpResponse sha1 h (buffer ++ more) = .ok (some (h', n)) := by
  obtain ⟨hsame, lines, hlines, hread⟩ := parseHttpResponse_eq_some.mp hparse
  exact parseHttpResponse_eq_some.mpr ⟨hsame, lines, parseHttpLines_append hlines more, hread⟩

/-! ## What is generated is read -/

theorem httpLines_line {line text rest : Bytes} (h : lf ∉ text) :
    httpLines line (text ++ crlf ++ rest) =
      if line ++ text = [] then some ([], rest)
      else (httpLines [] rest).map fun (lines, cur) => ((line ++ text) :: lines, cur) := by
  induction text generalizing line with
  | nil =>
      have hstrip : stripCr (line ++ [cr]) = line := by
        rw [stripCr, if_pos List.getLast?_concat, List.dropLast_concat]
      show httpLines line (cr :: lf :: rest) = _
      rw [httpLines, if_neg (by decide), httpLines, if_pos rfl, hstrip, List.append_nil]
  | cons c text ih =>
      have hc : c ≠ lf := fun heq => h (List.mem_cons.mpr (.inl heq.symm))
      rw [List.cons_append, List.cons_append, httpLines, if_neg hc, ih fun hmem => h (List.mem_cons_of_mem c hmem),
        List.append_assoc, List.singleton_append]

theorem httpLines_httpText {lines : List Bytes} (h : ∀ line ∈ lines, line ≠ [] ∧ lf ∉ line) (rest : Bytes) :
    httpLines [] (httpText lines ++ rest) = some (lines, rest) := by
  induction lines with
  | nil => rfl
  | cons line lines ih =>
      obtain ⟨hne, hlf⟩ := h line (List.mem_cons_self ..)
      have hsplit : httpText (line :: lines) ++ rest = line ++ crlf ++ (httpText lines ++ rest) := by
        simp only [httpText, List.flatMap_cons, List.append_assoc]
      rw [hsplit, httpLines_line hlf, List.nil_append, if_neg hne,
        ih fun line' hmem => h line' (List.mem_cons_of_mem line hmem)]
      rfl

theorem parseHttpLines_httpText {lines : List Bytes} (h : ∀ line ∈ lines, line ≠ [] ∧ lf ∉ line) (rest : Bytes) :
    parseHttpLines (httpText lines ++ rest) = some (lines, (httpText lines).length) := by
  rw [parseHttpLines, httpLines_httpText h]
  simp only [Option.map_some, List.length_append, Nat.add_sub_cancel]

/-- A text of which something is missing is not complete. -/
theorem parseHttpLines_part {lines : List Bytes} (h : ∀ line ∈ lines, line ≠ [] ∧ lf ∉ line) {buffer more : Bytes}
    (happ : buffer ++ more = httpText lines) (hne : more ≠ []) : parseHttpLines buffer = none := by
  cases hlines : httpLines [] buffer with
  | none => rw [parseHttpLines, hlines]; rfl
  | some parsed =>
      obtain ⟨lines', cur⟩ := parsed
      have hfull := httpLines_append hlines more
      have htext := httpLines_httpText h []
      rw [List.append_nil] at htext
      rw [happ, htext] at hfull
      have hnil : [] = cur ++ more := (Prod.mk.inj (Option.some.inj hfull)).2
      exact absurd (List.append_eq_nil_iff.mp hnil.symm).2 hne

theorem dropWhile_colon {name value : Bytes} (h : colon ∉ name) :
    (name ++ colon :: value).dropWhile (· != colon) = colon :: value := by
  induction name with
  | nil => rfl
  | cons c name ih =>
      have hc : (c != colon) = true := bne_iff_ne.mpr fun heq => h (List.mem_cons.mpr (.inl heq.symm))
      rw [List.cons_append, List.dropWhile_cons, if_pos hc, ih fun hmem => h (List.mem_cons_of_mem c hmem)]

theorem takeWhile_colon {name value : Bytes} (h : colon ∉ name) :
    (name ++ colon :: value).takeWhile (· != colon) = name := by
  induction name with
  | nil => rfl
  | cons c name ih =>
      have hc : (c != colon) = true := bne_iff_ne.mpr fun heq => h (List.mem_cons.mpr (.inl heq.symm))
      rw [List.cons_append, List.takeWhile_cons, if_pos hc, ih fun hmem => h (List.mem_cons_of_mem c hmem)]

theorem dropWhile_space {value : Bytes} (h : value.head? ≠ some space) : value.dropWhile (· == space) = value := by
  cases value with
  | nil => rfl
  | cons c value =>
      have hc : ¬ (c == space) = true := fun heq => h (congrArg some (eq_of_beq heq))
      rw [List.dropWhile_cons, if_neg hc]

theorem parseHttpHeader_eq {name value : Bytes} (hname : colon ∉ name) (hvalue : value.head? ≠ some space) :
    parseHttpHeader (name ++ [colon, space] ++ value) = (name.map tolower, value) := by
  have hline : name ++ [colon, space] ++ value = name ++ colon :: space :: value := by
    rw [List.append_assoc]
    rfl
  rw [parseHttpHeader, hline, dropWhile_colon hname, takeWhile_colon hname]
  show (name.map tolower, (space :: value).dropWhile (· == space)) = _
  rw [List.dropWhile_cons, if_pos (beq_self_eq_true space), dropWhile_space hvalue]

/-! ## Lists of protocols -/

theorem explodeLoop_token {delim : UInt8} {token text rest : Bytes} (h : delim ∉ text) :
    explodeLoop delim token (text ++ delim :: rest) = (token ++ text) :: explodeLoop delim [] rest := by
  induction text generalizing token with
  | nil => rw [List.nil_append, explodeLoop, if_pos rfl, List.append_nil]
  | cons c text ih =>
      have hc : c ≠ delim := fun heq => h (List.mem_cons.mpr (.inl heq.symm))
      rw [List.cons_append, explodeLoop, if_neg hc, ih fun hmem => h (List.mem_cons_of_mem c hmem),
        List.append_assoc, List.singleton_append]

theorem explodeLoop_last {delim : UInt8} {token text : Bytes} (h : delim ∉ text) (hne : token ++ text ≠ []) :
    explodeLoop delim token text = [token ++ text] := by
  induction text generalizing token with
  | nil =>
      rw [List.append_nil] at hne ⊢
      rw [explodeLoop, if_neg hne]
  | cons c text ih =>
      have hc : c ≠ delim := fun heq => h (List.mem_cons.mpr (.inl heq.symm))
      have happ : token ++ [c] ++ text = token ++ c :: text := by rw [List.append_assoc, List.singleton_append]
      rw [explodeLoop, if_neg hc, ih (fun hmem => h (List.mem_cons_of_mem c hmem)) (by rw [happ]; exact hne), happ]

theorem implode_singleton (token : Bytes) (delim : UInt8) : implode [token] delim = token := by
  rw [implode, List.flatMap_singleton, List.dropLast_concat]

theorem implode_cons {token : Bytes} {tokens : List Bytes} {delim : UInt8} (hne : tokens ≠ []) :
    implode (token :: tokens) delim = token ++ delim :: implode tokens delim := by
  have hflat : tokens.flatMap (fun token => token ++ [delim]) ≠ [] := by
    cases tokens with
    | nil => exact absurd rfl hne
    | cons t ts =>
        intro hnil
        rw [List.flatMap_cons] at hnil
        exact absurd (List.append_eq_nil_iff.mp (List.append_eq_nil_iff.mp hnil).1).2 (List.cons_ne_nil _ _)
  rw [implode, List.flatMap_cons, List.dropLast_append_of_ne_nil hflat, List.append_assoc]
  rfl

theorem explode_implode {delim : UInt8} {tokens : List Bytes} (h : ∀ token ∈ tokens, token ≠ [] ∧ delim ∉ token) :
    explode (implode tokens delim) delim = tokens := by
  induction tokens with
  | nil => rfl
  | cons token tokens ih =>
      obtain ⟨hne, hdelim⟩ := h token (List.mem_cons_self ..)
      by_cases hnil : tokens = []
      · rw [hnil, implode_singleton, explode, explodeLoop_last hdelim (by rwa [List.nil_append])]
        rfl
      · have hrest := ih fun t hmem => h t (List.mem_cons_of_mem token hmem)
        rw [implode_cons hnil, explode, explodeLoop_token hdelim, List.nil_append]
        exact congrArg (List.cons token) hrest

theorem mem_implode {c delim : UInt8} {tokens : List Bytes} (h : c ∈ implode tokens delim) :
    c = delim ∨ ∃ token ∈ tokens, c ∈ token := by
  obtain ⟨token, hmem, hc⟩ := List.mem_flatMap.mp ((List.dropLast_sublist _).subset h)
  rcases List.mem_append.mp hc with hc | hc
  · exact .inr ⟨token, hmem, hc⟩
  · exact .inl (List.mem_singleton.mp hc)

/-! ## Keys -/

/-- A byte that may stand anywhere in a value of a header. -/
def plain (c : UInt8) : Bool := c != lf && c != space

theorem plain_base64Digit (d : UInt8) : plain (base64Digit d) = true := by
  have htab : base64Tab.all plain = true := by decide
  rw [base64Digit, List.getD_eq_getElem?_getD]
  cases hd : base64Tab[d.toNat]? with
  | none => decide
  | some c => exact List.all_eq_true.mp htab c (List.mem_of_getElem? hd)

theorem plain_base64Encode (data : Bytes) : ∀ c ∈ base64Encode data, plain c = true := by
  fun_induction base64Encode data with
  | case1 d₀ d₁ d₂ data ih =>
      intro c hc
      rcases List.mem_append.mp hc with hc | hc
      · simp only [List.mem_cons, List.not_mem_nil, or_false] at hc
        rcases hc with rfl | rfl | rfl | rfl <;> exact plain_base64Digit _
      · exact ih c hc
  | case2 d₀ d₁ =>
      intro c hc
      simp only [List.mem_cons, List.not_mem_nil, or_false] at hc
      rcases hc with rfl | rfl | rfl | rfl
      · exact plain_base64Digit _
      · exact plain_base64Digit _
      · exact plain_base64Digit _
      · decide
  | case3 d₀ =>
      intro c hc
      simp only [List.mem_cons, List.not_mem_nil, or_false] at hc
      rcases hc with rfl | rfl | rfl | rfl
      · exact plain_base64Digit _
      · exact plain_base64Digit _
      · decide
      · decide
  | case4 =>
      intro c hc
      cases hc

/-- What may be the value of a header. -/
structure Value (value : Bytes) : Prop where
  head : value.head? ≠ some space
  line : lf ∉ value

theorem Value.of_plain {value : Bytes} (h : ∀ c ∈ value, plain c = true) : Value value := by
  have hne : ∀ c ∈ value, c ≠ lf ∧ c ≠ space := by
    intro c hc
    simpa only [plain, Bool.and_eq_true, bne_iff_ne] using h c hc
  refine ⟨?_, fun hmem => (hne lf hmem).1 rfl⟩
  intro hhead
  exact (hne space (List.mem_of_mem_head? hhead)).2 rfl

/-! ## The handshake goes through -/

theorem nextWord_space (line : Bytes) : nextWord (space :: line) = nextWord line := by
  rw [nextWord, nextWord, List.dropWhile_cons, if_pos (by decide)]

theorem nextWord_word {word rest : Bytes} (hne : word ≠ []) (h : ∀ c ∈ word, isSpace c = false) :
    nextWord (word ++ space :: rest) = (word, space :: rest) := by
  have hword : ∀ c ∈ word, (!isSpace c) = true := fun c hc => by rw [h c hc]; rfl
  have hskip : (word ++ space :: rest).dropWhile isSpace = word ++ space :: rest := by
    cases word with
    | nil => exact absurd rfl hne
    | cons c word =>
        rw [List.cons_append, List.dropWhile_cons, if_neg]
        rw [h c (List.mem_cons_self ..)]
        decide
  have hend : (!isSpace space) = false := rfl
  rw [nextWord, hskip, List.takeWhile_append_of_pos hword, List.dropWhile_append_of_pos hword,
    List.takeWhile_cons, List.dropWhile_cons, hend]
  exact congrArg (fun w => (w, space :: rest)) (List.append_nil word)

/-- What a client may be told to ask for: a path that is one word, a host and protocols that stand on a line. -/
structure WsHandshake.Valid (h : WsHandshake) : Prop where
  host : Value h.mHost
  path : h.mPath ≠ []
  word : ∀ c ∈ h.mPath, isSpace c = false
  protocols : ∀ protocol ∈ h.mProtocols, protocol ≠ [] ∧ comma ∉ protocol ∧ Value protocol

theorem implode_value {protocols : List Bytes}
    (h : ∀ protocol ∈ protocols, protocol ≠ [] ∧ comma ∉ protocol ∧ Value protocol) :
    Value (implode protocols comma) := by
  constructor
  · cases protocols with
    | nil => intro hnone; cases hnone
    | cons protocol protocols =>
        obtain ⟨hne, -, hvalue⟩ := h protocol (List.mem_cons_self ..)
        have hhead : ∀ rest, (protocol ++ rest).head? ≠ some space := by
          intro rest
          rw [List.head?_append_of_ne_nil _ hne]
          exact hvalue.head
        by_cases hnil : protocols = []
        · rw [hnil, implode_singleton]
          exact hvalue.head
        · rw [implode_cons hnil]
          exact hhead _
  · intro hmem
    rcases mem_implode hmem with hcomma | ⟨protocol, hprotocol, hlf⟩
    · exact absurd hcomma (by decide)
    · exact (h protocol hprotocol).2.2.line hlf

theorem parseHttpHeader_host {value : Bytes} (h : Value value) :
    parseHttpHeader (str "Host: " ++ value) = (str "host", value) :=
  parseHttpHeader_eq (show colon ∉ str "Host" by decide) h.head

theorem parseHttpHeader_key {value : Bytes} (h : Value value) :
    parseHttpHeader (str "Sec-WebSocket-Key: " ++ value) = (str "sec-websocket-key", value) :=
  parseHttpHeader_eq (show colon ∉ str "Sec-WebSocket-Key" by decide) h.head

theorem parseHttpHeader_accept {value : Bytes} (h : Value value) :
    parseHttpHeader (str "Sec-WebSocket-Accept: " ++ value) = (str "sec-websocket-accept", value) :=
  parseHttpHeader_eq (show colon ∉ str "Sec-WebSocket-Accept" by decide) h.head

theorem parseHttpHeaders_protocols {protocols : List Bytes}
    (h : ∀ protocol ∈ protocols, protocol ≠ [] ∧ comma ∉ protocol ∧ Value protocol) :
    parseHttpHeaders (protocolLines protocols) =
      if protocols = [] then [] else [(str "sec-websocket-protocol", implode protocols comma)] := by
  unfold protocolLines
  split
  · rfl
  · exact congrArg (fun header => [header])
      (parseHttpHeader_eq (show colon ∉ str "Sec-WebSocket-Protocol" by decide) (implode_value h).head)

/-- The server reads what the client has asked for. -/
theorem readRequest_requestLines {h server : WsHandshake} (hvalid : h.Valid) (hkey : Value h.mKey)
    (hserver : server.mProtocols = []) : server.readRequest h.requestLines = .ok h := by
  have hmethod : nextWord (str "GET " ++ h.mPath ++ str " HTTP/1.1") =
      (str "GET", space :: (h.mPath ++ str " HTTP/1.1")) := by
    have hletters : (str "GET").all (fun c => !isSpace c) = true := by decide
    rw [List.append_assoc]
    refine nextWord_word (show str "GET" ≠ [] by decide) fun c hc => ?_
    simpa only [Bool.not_eq_true'] using List.all_eq_true.mp hletters c hc
  have hpath : nextWord (space :: (h.mPath ++ str " HTTP/1.1")) = (h.mPath, str " HTTP/1.1") := by
    rw [nextWord_space]
    exact @nextWord_word h.mPath (str "HTTP/1.1") hvalid.path hvalid.word
  have hheaders : parseHttpHeaders h.requestLines.tail =
      [(str "host", h.mHost), (str "connection", str "Upgrade"), (str "upgrade", str "websocket"),
        (str "sec-websocket-version", str "13"), (str "sec-websocket-key", h.mKey)] ++
      if h.mProtocols = [] then [] else [(str "sec-websocket-protocol", implode h.mProtocols comma)] := by
    rw [← parseHttpHeaders_protocols hvalid.protocols, ← parseHttpHeader_host hvalid.host,
      ← parseHttpHeader_key hkey]
    rfl
  -- The headers are looked up in the list that they have been written from.
  have hlines : h.requestLines = (str "GET " ++ h.mPath ++ str " HTTP/1.1") :: h.requestLines.tail := rfl
  rw [hlines, WsHandshake.readRequest, hmethod]
  generalize hheaders' : parseHttpHeaders h.requestLines.tail = headers
  rw [hheaders] at hheaders'
  have hhost : headers.lookup (str "host") = some h.mHost := by rw [← hheaders']; rfl
  have hupgrade : headers.lookup (str "upgrade") = some (str "websocket") := by rw [← hheaders']; rfl
  have hfound : headers.lookup (str "sec-websocket-key") = some h.mKey := by rw [← hheaders']; rfl
  have hprotocols : headers.lookup (str "sec-websocket-protocol") =
      if h.mProtocols = [] then none else some (implode h.mProtocols comma) := by
    rw [← hheaders']
    split <;> rfl
  simp only [hpath, hhost, hupgrade, hfound, hprotocols, ne_eq, not_true_eq_false, if_false]
  rw [if_neg (by decide)]
  -- A client without protocols sends no line for them, and the server keeps its own, of which it has none.
  by_cases hnil : h.mProtocols = []
  · rw [if_pos hnil, hserver, ← hnil]
  · rw [if_neg hnil]
    show Except.ok { h with mProtocols := explode (implode h.mProtocols comma) comma } = Except.ok h
    rw [explode_implode fun protocol hmem =>
      ⟨(hvalid.protocols protocol hmem).1, (hvalid.protocols protocol hmem).2.1⟩]

/-- The lines of a text: none of them is empty, and none is cut. -/
def HttpLine (line : Bytes) : Prop := line ≠ [] ∧ lf ∉ line

theorem HttpLine.append {text value : Bytes} (htext : HttpLine text) (hvalue : lf ∉ value) :
    HttpLine (text ++ value) := by
  refine ⟨fun hnil => htext.1 (List.append_eq_nil_iff.mp hnil).1, fun hmem => ?_⟩
  rcases List.mem_append.mp hmem with hmem | hmem
  · exact htext.2 hmem
  · exact hvalue hmem

instance (line : Bytes) : Decidable (HttpLine line) := inferInstanceAs (Decidable (line ≠ [] ∧ lf ∉ line))

theorem protocolLines_valid {protocols : List Bytes}
    (h : ∀ protocol ∈ protocols, protocol ≠ [] ∧ comma ∉ protocol ∧ Value protocol) :
    ∀ line ∈ protocolLines protocols, HttpLine line := by
  intro line hmem
  unfold protocolLines at hmem
  split at hmem
  · cases hmem
  · rw [List.mem_singleton.mp hmem]
    exact HttpLine.append (by decide) (implode_value h).line

theorem requestLines_valid {h : WsHandshake} (hvalid : h.Valid) (hkey : Value h.mKey) :
    ∀ line ∈ h.requestLines, HttpLine line := by
  have hpath : lf ∉ h.mPath := fun hmem => absurd (hvalid.word lf hmem) (by decide)
  have hrequest : HttpLine (str "GET " ++ h.mPath ++ str " HTTP/1.1") :=
    HttpLine.append (HttpLine.append (by decide) hpath) (by decide)
  intro line hmem
  rcases List.mem_append.mp hmem with hmem | hmem
  · simp only [List.mem_cons, List.not_mem_nil, or_false] at hmem
    rcases hmem with rfl | rfl | rfl | rfl | rfl | rfl
    · exact hrequest
    · exact HttpLine.append (by decide) hvalid.host.line
    · decide
    · decide
    · decide
    · exact HttpLine.append (by decide) hkey.line
  · exact protocolLines_valid hvalid.protocols line hmem

theorem responseLines_valid {sha1 : Bytes → Bytes} {h : WsHandshake} (hvalid : h.Valid) :
    ∀ line ∈ h.responseLines sha1, HttpLine line := by
  intro line hmem
  rcases List.mem_append.mp hmem with hmem | hmem
  · simp only [List.mem_cons, List.not_mem_nil, or_false] at hmem
    rcases hmem with rfl | rfl | rfl | rfl | rfl
    · decide
    · decide
    · decide
    · decide
    · exact HttpLine.append (by decide) (Value.of_plain (plain_base64Encode _)).line
  · exact protocolLines_valid hvalid.protocols line hmem

/-- The client reads what the server has answered to its key. -/
theorem readResponse_responseLines {sha1 : Bytes → Bytes} {h client : WsHandshake} (hkey : client.mKey = h.mKey)
    (hvalid : h.Valid) : client.readResponse sha1 (h.responseLines sha1) = .ok () := by
  have hword : nextWord (str "HTTP/1.1 101 Switching Protocols") =
      (str "HTTP/1.1", str " 101 Switching Protocols") := by decide
  have hcode : nextUnsigned (str " 101 Switching Protocols") = 101 := by decide
  have hheaders : parseHttpHeaders (h.responseLines sha1).tail =
      [(str "server", str "libdatachannel"), (str "connection", str "Upgrade"), (str "upgrade", str "websocket"),
        (str "sec-websocket-accept", computeAcceptKey sha1 h.mKey)] ++
      if h.mProtocols = [] then [] else [(str "sec-websocket-protocol", implode h.mProtocols comma)] := by
    have hvalue : Value (computeAcceptKey sha1 h.mKey) := Value.of_plain (plain_base64Encode _)
    rw [← parseHttpHeaders_protocols hvalid.protocols, ← parseHttpHeader_accept hvalue]
    rfl
  have hlines : h.responseLines sha1 = str "HTTP/1.1 101 Switching Protocols" :: (h.responseLines sha1).tail := rfl
  rw [hlines, WsHandshake.readResponse, hword]
  generalize hheaders' : parseHttpHeaders (h.responseLines sha1).tail = headers
  rw [hheaders] at hheaders'
  have hupgrade : headers.lookup (str "upgrade") = some (str "websocket") := by rw [← hheaders']; rfl
  have haccept : headers.lookup (str "sec-websocket-accept") = some (computeAcceptKey sha1 h.mKey) := by
    rw [← hheaders']
    rfl
  simp only [hcode, hupgrade, haccept, hkey, ne_eq, not_true_eq_false, if_false]
  rw [if_neg (by decide)]

theorem generateKey_value (random : Bytes) : Value (generateKey random) := Value.of_plain (plain_base64Encode random)

/-- **The server accepts the client's request**, and what comes behind it is left. -/
theorem parseHttpRequest_generateHttpRequest {h server : WsHandshake} (hvalid : h.Valid)
    (hserver : server.mProtocols = []) (random rest : Bytes) :
    parseHttpRequest server ((generateHttpRequest h random).2 ++ rest) =
      .ok (some ((generateHttpRequest h random).1, (generateHttpRequest h random).2.length)) := by
  have hvalid' : (generateHttpRequest h random).1.Valid := ⟨hvalid.host, hvalid.path, hvalid.word, hvalid.protocols⟩
  have hkey : Value (generateHttpRequest h random).1.mKey := generateKey_value random
  exact parseHttpRequest_eq_some.mpr ⟨rfl, _, parseHttpLines_httpText (requestLines_valid hvalid' hkey) rest,
    readRequest_requestLines hvalid' hkey hserver⟩

/-- **The server waits** until it has all of the request. -/
theorem parseHttpRequest_wait {h server : WsHandshake} (hvalid : h.Valid) {random buffer more : Bytes}
    (happ : buffer ++ more = (generateHttpRequest h random).2) (hne : more ≠ []) :
    parseHttpRequest server buffer = .ok none := by
  have hvalid' : (generateHttpRequest h random).1.Valid := ⟨hvalid.host, hvalid.path, hvalid.word, hvalid.protocols⟩
  have hlines := requestLines_valid hvalid' (generateKey_value random)
  refine parseHttpRequest_eq_none.mpr ⟨?_, parseHttpLines_part hlines happ hne⟩
  refine startsWithMethod_of_append (?_ : startsWithMethod 0 (buffer ++ more) = true)
  rw [happ]
  rfl

/-- **The client accepts the server's response** to its key. -/
theorem parseHttpResponse_generateHttpResponse {sha1 : Bytes → Bytes} {h client : WsHandshake} (hvalid : h.Valid)
    (hkey : client.mKey = h.mKey) (rest : Bytes) :
    parseHttpResponse sha1 client (generateHttpResponse sha1 h ++ rest) =
      .ok (some (client, (generateHttpResponse sha1 h).length)) :=
  parseHttpResponse_eq_some.mpr ⟨rfl, _, parseHttpLines_httpText (responseLines_valid hvalid) rest,
    readResponse_responseLines hkey hvalid⟩

theorem parseHttpResponse_wait {sha1 : Bytes → Bytes} {h client : WsHandshake} (hvalid : h.Valid) {buffer more : Bytes}
    (happ : buffer ++ more = generateHttpResponse sha1 h) (hne : more ≠ []) :
    parseHttpResponse sha1 client buffer = .ok none :=
  parseHttpResponse_eq_none.mpr (parseHttpLines_part (responseLines_valid hvalid) happ hne)

/-- **The handshake goes through**, however TCP cuts it. Of a request, whatever comes behind it, the server reads the
    host, the path, the protocols and the key of the client; the client accepts the response of the server. Until
    the other side's text is complete, each of them waits. -/
theorem handshake_agreed {h : WsHandshake} (hvalid : h.Valid) (sha1 : Bytes → Bytes) (random : Bytes) :
    let client := (generateHttpRequest h random).1
    let request := (generateHttpRequest h random).2
    let response := generateHttpResponse sha1 client
    (∀ rest, parseHttpRequest .empty (request ++ rest) = .ok (some (client, request.length))) ∧
      (∀ rest, parseHttpResponse sha1 client (response ++ rest) = .ok (some (client, response.length))) ∧
        ∀ buffer more, more ≠ [] →
          (buffer ++ more = request → parseHttpRequest .empty buffer = .ok none) ∧
            (buffer ++ more = response → parseHttpResponse sha1 client buffer = .ok none) := by
  intro client request response
  have hclient : client.Valid := ⟨hvalid.host, hvalid.path, hvalid.word, hvalid.protocols⟩
  refine ⟨fun rest => ?_, fun rest => ?_, fun buffer more hne => ⟨fun happ => ?_, fun happ => ?_⟩⟩
  · exact parseHttpRequest_generateHttpRequest hvalid rfl random rest
  · exact parseHttpResponse_generateHttpResponse hclient rfl rest
  · exact parseHttpRequest_wait hvalid happ hne
  · exact parseHttpResponse_wait hclient happ hne

def chat : WsHandshake where
  mHost := str "localhost"
  mPath := str "/chat"
  mProtocols := [str "v1", str "v2"]
  mKey := []

/-- A request, and what comes of it with its first chunk. -/
theorem handshake_agreed_chat :
    parseHttpRequest .empty (generateHttpRequest chat (str "the sample nonce")).2 =
        .ok (some ({ chat with mKey := str "dGhlIHNhbXBsZSBub25jZQ==" },
          (generateHttpRequest chat (str "the sample nonce")).2.length)) ∧
      parseHttpRequest .empty (str "GET ") = .ok none := by
  have hprotocols : ∀ protocol ∈ chat.mProtocols, protocol ≠ [] ∧ comma ∉ protocol ∧ Value protocol := by
    intro protocol hmem
    simp only [chat, List.mem_cons, List.not_mem_nil, or_false] at hmem
    rcases hmem with rfl | rfl <;> exact ⟨by decide, by decide, by decide, by decide⟩
  have hletters : chat.mPath.all (fun c => !isSpace c) = true := by decide
  have hword : ∀ c ∈ chat.mPath, isSpace c = false := by
    intro c hc
    simpa only [Bool.not_eq_true'] using List.all_eq_true.mp hletters c hc
  have hvalid : chat.Valid := ⟨⟨by decide, by decide⟩, by decide, hword, hprotocols⟩
  obtain ⟨hrequest, -, hwaits⟩ := handshake_agreed hvalid id (str "the sample nonce")
  have hkey : (generateHttpRequest chat (str "the sample nonce")).1 =
      { chat with mKey := str "dGhlIHNhbXBsZSBub25jZQ==" } := by
    decide
  have hmore : (generateHttpRequest chat (str "the sample nonce")).2.drop 4 ≠ [] := by decide
  constructor
  · have hall := hrequest []
    rwa [List.append_nil, hkey] at hall
  · exact (hwaits (str "GET ") _ hmore).1 rfl

end WebSocket

end WebrtcStreamer
