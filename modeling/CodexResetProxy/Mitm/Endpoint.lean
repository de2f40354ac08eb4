import CodexResetProxy.Mitm.Reader
import CodexResetProxy.Upstream.Served

/-!
An intercepted connection after its TLS handshake (`_handle_mitm_connection`,
`_write_http_proxy_response`, `_write_websocket_bridge_response`).

* `fixedResponse`, `streamingResponse`: what the two writers of responses give a client.
* `handleMitmConnection`: the request on a connection, with what is called and what is
  replied.  Nothing is replied to a request that cannot be read.
-/

namespace CodexResetProxy

open PyStr ByteStr StreamReader

/-- `_write_fixed_response`. -/
def fixedResponse (statusCode : ℕ) (headers : RawHeaders) (body : Bytes) : Reply where
  statusCode := statusCode
  headers := headers ++ [(ascii "content-length", format 10 body.length),
    (ascii "connection", ascii "close")]
  body := body

/-- `_write_streaming_response`: empty chunks are skipped. -/
def streamingResponse (statusCode : ℕ) (headers : RawHeaders) (chunks : List Bytes) : Reply where
  statusCode := statusCode
  headers :=
    headers.filter (fun h => lowerBytes h.1 ∉
        [ascii "content-length", ascii "transfer-encoding", ascii "connection"])
      ++ [(ascii "transfer-encoding", ascii "chunked"), (ascii "connection", ascii "close")]
  body := (chunks.filter (· ≠ [])).flatten

variable (cfg : Config)

/-- `_write_websocket_bridge_response`. -/
def writeWebsocketBridgeResponse (up : Upstream) (request : HttpRequest) (path : PyStr) : Served :=
  if request.method ≠ py "POST" then
    { reply := some (fixedResponse 405 [] (utf8 onlySupportsPost)) }
  else
    match openBridge cfg up (upstreamUrl cfg.settings path)
        (filteredRequestHeadersFromRaw cfg.settings request.headers) request.body with
    | (.ok opened, attempts) =>
        let streamed := streamBridge cfg up opened
        { attempts
          streamed := some streamed
          reply := some (streamingResponse 200
            [(ascii "content-type", ascii "text/event-stream; charset=utf-8"),
              (ascii "cache-control", ascii "no-cache"), transportHeader,
              attemptsHeader opened.attempts]
            (streamed.chunks.map fun chunk => chunk.data.toList)) }
    | (.error (.bridge e), attempts) =>
        { attempts
          reply := some (fixedResponse e.statusCode
            [errorHeader e.errorCode, attemptsHeader e.attempts] (utf8 (e.message ++ "\n"))) }
    | (.error _, attempts) => { attempts }

/-- `_write_http_proxy_response`. -/
def writeHttpProxyResponse (up : Upstream) (request : HttpRequest) (path : PyStr) : Served :=
  match filteredRequestHeadersFromRaw cfg.settings request.headers with
  | none => {}
  | some headers =>
      match openUpstreamRecorded cfg up.exchange up.response request.method
          (upstreamUrl cfg.settings path) headers request.body with
      | (.ok opened, record) =>
          { requests := requestsOf record
            reply := some (streamingResponse opened.response.statusCode
              (filterRawHeaders opened.response.headers [] ++ [attemptsHeader opened.attempts])
              up.exchange.chunks) }
      | (.error (.inl e), record) =>
          { requests := requestsOf record
            reply := some (fixedResponse e.statusCode [errorHeader e.errorCode] (utf8 e.text)) }
      | (.error (.inr _), record) => { requests := requestsOf record }

/-- `_handle_mitm_connection`, after `start_tls`. -/
def handleMitmConnection (up : Upstream) (s : Stream) : Served :=
  match readHttpRequest cfg.settings.maxRequestBodyBytes s with
  | .ok (some request, _) =>
      match originPath cfg.runtime request.target with
      | none => {}
      | some path =>
          if pathMatches cfg.settings path ∧
              cfg.settings.transportMode = .websocketPerRequest then
            writeWebsocketBridgeResponse cfg up request path
          else writeHttpProxyResponse cfg up request path
  | _ => {}

end CodexResetProxy
