import CodexResetProxy.Bridge.Attempts
import CodexResetProxy.Sse.Stream
import CodexResetProxy.Upstream.Attempts
import CodexResetProxy.Upstream.Urls

/-!
What a front end makes of a request: the calls upstream, and the reply to the client.

* `Upstream`: what a request meets upstream, in either transport.
* `Served`: what was called, and the reply; `Agree`: two front ends made the same of a
  request.
-/

namespace CodexResetProxy

open PyStr ByteStr Retry

/-- What a request meets upstream: what becomes of its exchange over HTTP, with the
heads of the responses; what becomes of its attempts on websockets, with the pool and
the messages that arrive on a connection after the first one. -/
structure Upstream where
  exchange : Exchange
  response : ℕ → UpstreamResponse
  course : Course
  pool : Option Pool
  later : Source → List Message

/-- A reply: its status, its headers, and the bytes of its body as far as they come,
to a client that takes them all. -/
structure Reply where
  statusCode : ℕ
  headers : RawHeaders
  body : Bytes
  deriving DecidableEq

/-- What a front end makes of a request: the requests it issues over HTTP, the attempts
it makes on websockets and how far it follows their messages, and the reply, with `none`
if it raises. -/
structure Served where
  requests : List UpstreamRequest := []
  attempts : List AttemptLog := []
  streamed : Option Streamed := none
  reply : Option Reply := none

/-- A text in UTF-8. -/
def utf8 (s : String) : Bytes := s.toUTF8.data.toList

/-- The header `x-codex-reset-proxy-error`. -/
def errorHeader (errorCode : String) : Bytes × Bytes :=
  (ascii "x-codex-reset-proxy-error", ascii errorCode)

/-- The header `x-codex-reset-proxy-attempts`. -/
def attemptsHeader (attempts : ℕ) : Bytes × Bytes :=
  (ascii "x-codex-reset-proxy-attempts", ascii (toString attempts))

/-- The header `x-codex-reset-proxy-transport`. -/
def transportHeader : Bytes × Bytes :=
  (ascii "x-codex-reset-proxy-transport", ascii "websocket_per_request")

variable (cfg : Config)

/-- The text for an `UpstreamOpenError`. -/
def UpstreamOpenError.text (e : UpstreamOpenError) : String :=
  e.message ++ " after " ++ toString e.attempts ++ " attempt(s)\n"

/-- The text for a method that cannot be bridged. -/
def onlySupportsPost : String := "websocket_per_request transport only supports POST\n"

/-- `open_websocket_bridge_with_retries` with the arguments that both front ends give it.
The URL of the websocket is made first, and then the headers, with `none` for a
`UnicodeEncodeError`. -/
def openBridge (up : Upstream) (url : PyStr) (headers? : Option RawHeaders) (body : Bytes) :
    Except Raised OpenedBridge × List AttemptLog :=
  match buildUpstreamWsUrl cfg.runtime url, headers? with
  | .error e, _ => (.error e, [])
  | .ok _, none => (.error (.exc (.other "UnicodeEncodeError")), [])
  | .ok wsUrl, some headers =>
      let call := openBridgeRecorded cfg up.course
        { id := 0, url := wsUrl, rawHeaders := headers, body := ⟨body.toArray⟩ } up.pool
      (call.1, call.2.2)

/-- What `stream_websocket_as_sse` makes of a connection. -/
def streamBridge (up : Upstream) (opened : OpenedBridge) : Streamed :=
  streamWebsocketAsSse cfg.runtime.depth (opened.firstMessage :: up.later opened.source)

/-! ### Agreement -/

/-- The headers that the proxy adds, by their names. -/
def proxyHeaders (headers : RawHeaders) : RawHeaders :=
  headers.filter fun h => ascii "x-codex-reset-proxy-" <+: lowerBytes h.1

/-- The client gets the same: status, proxy headers and body. -/
structure Reply.Same (r r' : Reply) : Prop where
  statusCode : r.statusCode = r'.statusCode
  headers : proxyHeaders r.headers = proxyHeaders r'.headers
  body : r.body = r'.body

/-- Two front ends make the same of a request: the same calls upstream, in the same
order, and the same reply. -/
structure Agree (a b : Served) : Prop where
  requests : a.requests = b.requests
  attempts : a.attempts = b.attempts
  streamed : a.streamed = b.streamed
  reply : ∃ r r', a.reply = some r ∧ b.reply = some r' ∧ r.Same r'

end CodexResetProxy
