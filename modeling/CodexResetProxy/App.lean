import CodexResetProxy.Mitm.Chunked
import CodexResetProxy.Upstream.Served

/-!
The reverse proxy (`app.py`, `read_limited_body`).

* `AsgiRequest`: what the ASGI server and Starlette give of a request.
* `readLimitedBody_eq`: the body is read whole, or too large.
* `proxyEndpoint`: the endpoint, with what it calls and what it replies.
-/

namespace CodexResetProxy

open PyStr ByteStr

/-- A request: `method`, `raw_path` and `query_string` of the scope, `request.url.path`
(`none` if it raises), the raw headers and the chunks of the body. -/
structure AsgiRequest where
  method : PyStr
  rawPath : Option Bytes
  urlPath : Option PyStr
  queryString : Option Bytes
  headers : RawHeaders
  body : List Bytes

/-! ### The body -/

/-- The loop of `read_limited_body`. -/
def readLimitedChunks (limit : ℕ) :
    ℕ → List Bytes → List Bytes → Except RequestBodyTooLarge (List Bytes)
  | _, chunks, [] => .ok chunks
  | size, chunks, chunk :: stream =>
      if limit < size + chunk.length then .error (bodyTooLarge limit)
      else readLimitedChunks limit (size + chunk.length) (chunks ++ [chunk]) stream

/-- `read_limited_body`. -/
def readLimitedBody (limit : ℕ) (stream : List Bytes) : Except RequestBodyTooLarge Bytes :=
  (readLimitedChunks limit 0 [] stream).map List.flatten

lemma readLimitedChunks_eq {limit size : ℕ} {chunks : List Bytes} (hsize : size ≤ limit)
    (stream : List Bytes) : readLimitedChunks limit size chunks stream
      = if limit < size + stream.flatten.length then .error (bodyTooLarge limit)
        else .ok (chunks ++ stream) := by
  induction stream generalizing size chunks with
  | nil =>
      rw [readLimitedChunks, if_neg (by simpa using hsize), List.append_nil]
  | cons chunk stream ih =>
      rw [readLimitedChunks, List.flatten_cons, List.length_append, ← Nat.add_assoc]
      by_cases hlarge : limit < size + chunk.length
      · rw [if_pos hlarge, if_pos (by omega)]
      · rw [if_neg hlarge, ih (Nat.not_lt.mp hlarge), List.append_assoc]
        rfl

/-- **The body is read** whole or is too large, however it is cut. -/
theorem readLimitedBody_eq (limit : ℕ) (stream : List Bytes) : readLimitedBody limit stream
    = if limit < stream.flatten.length then .error (bodyTooLarge limit)
      else .ok stream.flatten := by
  rw [readLimitedBody, readLimitedChunks_eq (Nat.zero_le limit), Nat.zero_add, List.nil_append]
  split_ifs <;> rfl

/-! ### Responses -/

/-- `PlainTextResponse`. -/
def plainTextResponse (content : String) (statusCode : ℕ) (headers : RawHeaders) : Reply where
  statusCode := statusCode
  headers := headers ++ [(ascii "content-length", format 10 (utf8 content).length),
    (ascii "content-type", ascii "text/plain; charset=utf-8")]
  body := utf8 content

variable (cfg : Config)

/-- `proxy_endpoint` over a websocket. -/
def bridgeEndpoint (up : Upstream) (url : PyStr) (headers : RawHeaders) (body : Bytes) : Served :=
  match openBridge cfg up url (some headers) body with
  | (.ok opened, attempts) =>
      let streamed := streamBridge cfg up opened
      { attempts
        streamed := some streamed
        reply := some
          { statusCode := 200
            headers := [transportHeader, attemptsHeader opened.attempts,
              (ascii "content-type", ascii "text/event-stream; charset=utf-8")]
            body := streamed.chunks.flatMap fun chunk => chunk.data.toList } }
  | (.error (.bridge e), attempts) =>
      { attempts
        reply := some (plainTextResponse (e.message ++ "\n") e.statusCode
          [errorHeader e.errorCode, attemptsHeader e.attempts]) }
  | (.error _, attempts) => { attempts }

/-- `proxy_endpoint` over plain HTTP. -/
def httpEndpoint (up : Upstream) (method url : PyStr) (headers : RawHeaders) (body : Bytes) :
    Served :=
  match openUpstreamRecorded cfg up.exchange up.response method url headers body with
  | (.ok opened, record) =>
      { requests := requestsOf record
        reply := some
          { statusCode := opened.response.statusCode
            headers := filterRawHeaders opened.response.headers []
              ++ [attemptsHeader opened.attempts]
            body := up.exchange.chunks.flatten } }
  | (.error (.inl e), record) =>
      { requests := requestsOf record
        reply := some (plainTextResponse e.text e.statusCode
          [errorHeader e.errorCode, attemptsHeader e.attempts]) }
  | (.error (.inr _), record) => { requests := requestsOf record }

/-- `proxy_endpoint`. -/
def proxyEndpoint (up : Upstream) (request : AsgiRequest) : Served :=
  match readLimitedBody cfg.settings.maxRequestBodyBytes request.body with
  | .error e => { reply := some (plainTextResponse e.text 413 []) }
  | .ok body =>
      match buildUpstreamUrl cfg.settings request.rawPath request.urlPath request.queryString,
          filteredRequestHeadersFromRaw cfg.settings request.headers with
      | some url, some headers =>
          match cfg.settings.transportMode with
          | .websocketPerRequest =>
              if request.method ≠ py "POST" then
                { reply := some (plainTextResponse onlySupportsPost 405 []) }
              else bridgeEndpoint cfg up url headers body
          | .http => httpEndpoint cfg up request.method url headers body
      | _, _ => {}

end CodexResetProxy
