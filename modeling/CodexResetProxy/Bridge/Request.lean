import CodexResetProxy.Bridge.PoolKey
import CodexResetProxy.Sse.Format

/-!
One request to the bridge: what it asks for, the frame it is wrapped in
(`build_response_create_request`), and the errors it can end with.

* `Exc`: an exception, by the classes that the `except` clauses tell apart.
* `BridgeError`: `WebSocketBridgeError`, with the status, code and message of
  each place that raises one (`openError`, `firstMessageError?`).
* `completedId`: the id for which the stream ends, if a message has one.
-/

namespace CodexResetProxy

open PyStr

/-- An `Exception` with the name of its class: `asyncio.TimeoutError`, another
`OSError`, a `WebSocketException`, or anything else. -/
inductive Exc where
  | timeout
  | os (name : String)
  | webSocket (name : String)
  | other (name : String)
  deriving DecidableEq

/-- `exc.__class__.__name__`. -/
def Exc.name : Exc → String
  | .timeout => "TimeoutError"
  | .os name => name
  | .webSocket name => name
  | .other name => name

/-- `WebSocketBridgeError`. -/
structure BridgeError where
  statusCode : ℕ
  errorCode : String
  message : String
  attempts : ℕ := 1
  deriving DecidableEq

/-- What ends a coroutine other than a `return`. -/
inductive Raised where
  | bridge (e : BridgeError)
  | exc (e : Exc)
  | cancelled
  deriving DecidableEq

/-- `build_response_create_request`. -/
def buildResponseCreateRequest (depth : ℕ) (body : ByteArray) :
    Except Raised (List (PyStr × Json)) :=
  match decodeUtf8 body with
  | none =>
      .error (.bridge
        { statusCode := 400, errorCode := "invalid_request_body"
          message := "request body must be UTF-8 JSON" })
  | some text =>
      match Json.loads depth text with
      | .error (.decode msg) =>
          .error (.bridge
            { statusCode := 400, errorCode := "invalid_request_json"
              message := "request body must be a JSON object: " ++ msg })
      | .error .digits => .error (.exc (.other "ValueError"))
      | .error .recursion => .error (.exc (.other "RecursionError"))
      | .ok (.obj payload) =>
          .ok ((py "type", .str (py "response.create")) :: payload.without (py "type"))
      | .ok _ =>
          .error (.bridge
            { statusCode := 400, errorCode := "invalid_request_json"
              message := "request body must be a JSON object" })

/-- The `WebSocketBridgeError` for an exception while connecting or sending. -/
def openError : Exc → BridgeError
  | .timeout =>
      { statusCode := 504, errorCode := "websocket_open_timeout"
        message := "timed out opening websocket or sending response.create" }
  | e =>
      { statusCode := 502, errorCode := "websocket_open_error"
        message := "failed to open websocket: " ++ e.name }

/-- The error of `open_websocket_bridge_with_retries` when no first message comes
in time. -/
def firstMessageTimeout (cfg : Config) : BridgeError :=
  { statusCode := 504, errorCode := "websocket_first_message_timeout"
    message := "upstream websocket did not return first message within " ++
      cfg.runtime.formatG cfg.settings.websocketFirstMessageTimeoutSeconds ++ "s" }

/-- What an attempt without a first message leaves behind, for the exceptions
that `open_websocket_bridge_with_retries` catches. -/
def firstMessageError? (cfg : Config) : Exc → Option BridgeError
  | .timeout => some (firstMessageTimeout cfg)
  | .other _ => none
  | e =>
      some
        { statusCode := 502, errorCode := "websocket_first_message_error"
          message := "upstream websocket failed before first message: " ++ e.name }

/-- A request, numbered as it comes in: the URL and the filtered headers it is
to be sent with, and its body. -/
structure Request where
  id : ℕ
  url : PyStr
  rawHeaders : List (List UInt8 × List UInt8)
  body : ByteArray
  deriving DecidableEq

/-- The headers of the handshake. -/
def Request.headers (r : Request) : List (PyStr × PyStr) := websocketHeaders r.rawHeaders

/-- The pool key of a request. -/
def Request.key (cfg : Config) (r : Request) : WebSocketPoolKey :=
  websocketPoolKey cfg r.url r.headers

/-- The id that `_completed_response_id` extracts from a message, if it is one
for which `stream_websocket_as_sse` ends the stream: not `None` and not
empty. -/
def completedId (depth : ℕ) (message : Message) : Option PyStr :=
  match websocketMessageToText message >>= completedResponseId depth with
  | .ok (some id) => if id = [] then none else some id
  | _ => none

end CodexResetProxy
