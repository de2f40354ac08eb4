import CodexResetProxy.Library.Custody
import CodexResetProxy.Library.Transition
import CodexResetProxy.Bridge.Pool
import CodexResetProxy.Bridge.Protocol

/-!
The bridge as a transition system: requests, background tasks and closers that
share the upstream connections and the pool.

A task is where its coroutine is suspended (`RequestPc`, `BackgroundPc`,
`CloserPc`), and a step takes one of them from the `await` it is suspended in to
the next, with what that `await` comes to (`Outcome`); all code in between runs
at once. Messages arrive on a connection and its state changes at any time.

* `requestStep`: `open_websocket_bridge_with_retries` with
  `WebSocketBridgePool.open_websocket_bridge`, the front end's response head,
  and `stream_websocket_as_sse`.
* `backgroundStep`: the task of `_schedule_response_processed` with
  `WebSocketBridgePool.release`.
* `closerStep`: `WebSocketBridgePool.aclose`.
* `bridge`: the system. Calls of `send`, `recv` and `__aexit__`, and what comes
  of them, are recorded on the connection.
-/

namespace CodexResetProxy

open Custody Transition

/-! ### Connections -/

/-- The `state` of a WebSocket: its `name`, if that is a string, and
`str(state)`. -/
structure SocketState where
  name : Option PyStr
  text : PyStr
  deriving DecidableEq

/-- What `_websocket_appears_open` looks at: `closed`, if it is a bool, and
`state`. -/
structure Socket where
  closed : Option Bool := none
  state : Option SocketState := none
  deriving DecidableEq

/-- `_websocket_appears_open`. -/
def websocketAppearsOpen (rt : Runtime) (socket : Socket) : Bool :=
  match socket.closed with
  | some closed => !closed
  | none =>
      match socket.state with
      | none => true
      | some state =>
          if (state.name.map rt.upper).any (· ∈ [py "CLOSING", py "CLOSED"]) then false
          else rt.upper state.text ∉ [py "CLOSING", py "CLOSED"]

/-- An upstream connection: the handshake it was opened with, its state, the
messages that have arrived and not been received, and what the proxy did on
it. -/
structure Conn where
  url : PyStr
  headers : List (PyStr × PyStr)
  socket : Socket
  unread : List Arrival
  log : List Event

namespace Conn

/-- A connection that has not been opened. -/
def blank : Conn := ⟨[], [], {}, [], []⟩

/-- Record an event. -/
def did (x : Conn) (e : Event) : Conn := { x with log := x.log ++ [e] }

/-- A message arrives. -/
def arrive (x : Conn) (message : Message) : Conn :=
  { x with unread := x.unread ++ [⟨message, x.log.length⟩] }

/-- A `recv` that was just called is suspended: there was no message when it was
called. -/
def waits (x : Conn) : Bool := x.unread.all fun a => a.stamp = x.log.length

end Conn

/-- What the tasks share. -/
structure World where
  conns : Store Conn
  pool : Pool
  now : ℚ

namespace World

/-- Record an event on a connection. -/
def did (w : World) (c : ℕ) (e : Event) : World :=
  { w with conns := w.conns.set c ((w.conns.cell c).did e) }

/-- `_close_context_quietly`, up to the `await`. -/
def exit (w : World) (c : ℕ) : World := w.did c .exited

/-- A `recv` returns the first message of a connection. -/
def take (w : World) (c : ℕ) (e : Event) (rest : List Arrival) : World :=
  { w with conns := w.conns.set c { (w.conns.cell c).did e with unread := rest } }

end World

/-! ### Tasks -/

/-- What an `await` comes to: it returns; the frame of a pending `send` is
written; it raises an `Exception`; the task is cancelled in it. -/
inductive Outcome where
  | returned
  | wrote
  | raised (e : Exc)
  | cancelled
  deriving DecidableEq

/-- `OpenedWebSocketBridge`: the connection, the attempt that opened it,
`reused_connection`. -/
structure Opened where
  conn : ℕ
  attempts : ℕ
  reused : Bool
  deriving DecidableEq

/-- Where a request is suspended.

* `checkingOut`: in `_checkout`, closing a stale entry, with more to close;
* `connecting`, `connectFailed`: in `_open_websocket_connection`, opening or
  closing the context;
* `sending`: in `_send_websocket_json`, before or after the frame was written;
* `awaitingFirst`: in the `recv` of `open_websocket_bridge_with_retries`;
* `closingAttempt`, `backingOff`: after a failed attempt;
* `head`: in the front end, sending the response head, with the generator of
  `stream_websocket_as_sse` not started;
* `suspended`, `receiving`, `closing`: in the generator, at its `yield`, in its
  `recv`, in its `finally`;
* `finished`: returned, or ended by what it raised. -/
inductive RequestPc where
  | checkingOut (attempt : ℕ) (selected : Option Idle) (stale : List Idle)
  | connecting (attempt : ℕ)
  | connectFailed (attempt : ℕ) (e : BridgeError)
  | sending (o : Opened) (written : Bool)
  | awaitingFirst (o : Opened)
  | closingAttempt (attempt : ℕ) (e : BridgeError)
  | backingOff (attempt : ℕ)
  | head (o : Opened) (a : Arrival)
  | suspended (o : Opened) (a : Arrival)
  | receiving (o : Opened)
  | closing (raised : Raised)
  | finished (raised : Option Raised)

/-- Where a background task is suspended: not started, in the `send` of
`response.processed`, in the probe of `release`, closing evicted entries, closing
its own connection, ended. -/
inductive BackgroundPc where
  | scheduled (responseId : PyStr)
  | acknowledging (responseId : PyStr) (written : Bool)
  | probing
  | evicting (stale : List Idle)
  | closing
  | finished

/-- Where `aclose` is suspended: closing an entry, with more to close; ended. -/
inductive CloserPc where
  | closing (rest : List Idle)
  | finished

/-- A task. A background task works for the request that scheduled it. -/
inductive Task where
  | request (r : Request) (pc : RequestPc)
  | background (r : Request) (o : Opened) (pc : BackgroundPc)
  | closer (pc : CloserPc)

variable (cfg : Config)

/-! ### Requests -/

/-- `_is_idle_entry_usable`. -/
def World.isUsable (w : World) (entry : Idle) : Bool :=
  if cfg.settings.websocketPoolIdleTimeoutSeconds < .finite (w.now - entry.lastUsedAt) then false
  else websocketAppearsOpen cfg.runtime (w.conns.cell entry.conn).socket

/-- `response.create` is sent. -/
def sendCreate (w : World) (r : Request) (o : Opened) : World × RequestPc :=
  (w.did o.conn (.send (.create r)), .sending o false)

/-- The end of `_checkout`: a stale entry is closed, or the selected one is used,
or a connection opened. -/
def closeStale (w : World) (r : Request) (attempt : ℕ) (selected : Option Idle) :
    List Idle → World × RequestPc
  | entry :: stale => (w.exit entry.conn, .checkingOut attempt selected stale)
  | [] =>
      match selected with
      | some entry => sendCreate w r ⟨entry.conn, attempt, true⟩
      | none => (w, .connecting attempt)

/-- An attempt of `open_websocket_bridge_with_retries`, up to its first `await`.
What `build_response_create_request` raises has status 400, so it is raised
again. -/
def startAttempt (w : World) (r : Request) (attempt : ℕ) : World × RequestPc :=
  match buildResponseCreateRequest cfg.runtime.depth r.body with
  | .error (.bridge e) => (w, .finished (some (.bridge { e with attempts := attempt })))
  | .error e => (w, .finished (some e))
  | .ok _ =>
      if cfg.settings.websocketPoolEnabled then
        let out := w.pool.checkout (w.isUsable cfg) (r.key cfg)
        closeStale { w with pool := out.pool } r attempt out.selected out.stale
      else (w, .connecting attempt)

/-- After a failed attempt. -/
def attemptFailed (w : World) (r : Request) (attempt : ℕ) (e : BridgeError) :
    World × RequestPc :=
  if attempt < cfg.settings.upstreamMaxAttempts then
    if cfg.settings.retryBackoffSeconds ≠ 0 then (w, .backingOff attempt)
    else startAttempt cfg w r (attempt + 1)
  else (w, .finished (some (.bridge { e with attempts := cfg.settings.upstreamMaxAttempts })))

/-- `open_websocket_bridge_with_retries`, up to its first `await`. -/
def startRequest (w : World) (r : Request) : World × RequestPc :=
  if cfg.settings.upstreamMaxAttempts = 0 then
    (w, .finished (some (.bridge { firstMessageTimeout cfg with attempts := 0 })))
  else startAttempt cfg w r 1

/-- The exception that a message raises in the generator. -/
def ForwardError.exc : ForwardError → Exc
  | .unicodeDecode => .other "UnicodeDecodeError"
  | .json .recursion => .other "RecursionError"
  | .json _ => .other "ValueError"
  | .unicodeEncode => .other "UnicodeEncodeError"

/-- The generator goes on with a message: it yields its chunk, or raises. -/
def forwardMessage (w : World) (r : Request) (o : Opened) (a : Arrival) : World × RequestPc :=
  match forward cfg.runtime.depth a.message with
  | .ok _ => (w.did o.conn (.yielded r a), .suspended o a)
  | .error e => (w.exit o.conn, .closing (.exc e.exc))

/-- The generator is resumed after its `yield`: it ends with a background task
that owns the connection, or receives again. -/
def resume (w : World) (r : Request) (o : Opened) (a : Arrival) :
    World × RequestPc × List Task :=
  match completedId cfg.runtime.depth a.message with
  | some id =>
      (w.did o.conn (.resumed r), .finished none, [.background r o (.scheduled id)])
  | none => ((w.did o.conn (.resumed r)).did o.conn .recv, .receiving o, [])

/-- The connection that a new context makes for a request. -/
def Request.connect (r : Request) : Conn := { Conn.blank with url := r.url, headers := r.headers }

/-- One step of a request. -/
def requestStep (w : World) (r : Request) :
    RequestPc → Outcome → Option (World × RequestPc × List Task)
  | .checkingOut _ _ _, .cancelled => some (w, .finished (some .cancelled), [])
  | .checkingOut _ _ _, .wrote => none
  | .checkingOut attempt selected stale, _ =>
      let (w, pc) := closeStale w r attempt selected stale
      some (w, pc, [])
  | .connecting attempt, .returned =>
      let (w, pc) := sendCreate { w with conns := w.conns.push r.connect } r
        ⟨w.conns.next, attempt, false⟩
      some (w, pc, [])
  | .connecting attempt, .raised e => some (w, .connectFailed attempt (openError e), [])
  | .connecting _, .cancelled => some (w, .finished (some .cancelled), [])
  | .connectFailed _ _, .cancelled => some (w, .finished (some .cancelled), [])
  | .connectFailed _ _, .wrote => none
  | .connectFailed attempt e, _ =>
      let (w, pc) := attemptFailed cfg w r attempt e
      some (w, pc, [])
  | .sending o false, .wrote => some (w.did o.conn (.sent (.create r)), .sending o true, [])
  | .sending o true, .returned => some (w.did o.conn .recv, .awaitingFirst o, [])
  | .sending o _, .raised e =>
      some (w.exit o.conn, .closingAttempt o.attempts (openError e), [])
  | .sending _ _, .cancelled => some (w, .finished (some .cancelled), [])
  | .awaitingFirst o, .returned =>
      match (w.conns.cell o.conn).unread with
      | a :: rest => some (w.take o.conn (.received r a) rest, .head o a, [])
      | [] => none
  | .awaitingFirst o, .raised e =>
      if (w.conns.cell o.conn).waits then
        match firstMessageError? cfg e with
        | some err => some (w.exit o.conn, .closingAttempt o.attempts err, [])
        | none => some (w, .finished (some (.exc e)), [])
      else none
  | .awaitingFirst o, .cancelled =>
      if (w.conns.cell o.conn).waits then some (w, .finished (some .cancelled), []) else none
  | .closingAttempt _ _, .cancelled => some (w, .finished (some .cancelled), [])
  | .closingAttempt _ _, .wrote => none
  | .closingAttempt attempt e, _ =>
      let (w, pc) := attemptFailed cfg w r attempt e
      some (w, pc, [])
  | .backingOff attempt, .returned =>
      let (w, pc) := startAttempt cfg w r (attempt + 1)
      some (w, pc, [])
  | .backingOff _, .cancelled => some (w, .finished (some .cancelled), [])
  | .head o a, .returned =>
      let (w, pc) := forwardMessage cfg w r o a
      some (w, pc, [])
  | .head _ _, .raised e => some (w, .finished (some (.exc e)), [])
  | .head _ _, .cancelled => some (w, .finished (some .cancelled), [])
  | .suspended o a, .returned => some (resume cfg w r o a)
  | .suspended o _, .raised e => some (w.exit o.conn, .closing (.exc e), [])
  | .suspended o _, .cancelled => some (w.exit o.conn, .closing .cancelled, [])
  | .receiving o, .returned =>
      match (w.conns.cell o.conn).unread with
      | a :: rest =>
          let (w, pc) := forwardMessage cfg (w.take o.conn (.received r a) rest) r o a
          some (w, pc, [])
      | [] => none
  | .receiving o, .raised e =>
      if (w.conns.cell o.conn).waits then some (w.exit o.conn, .closing (.exc e), []) else none
  | .receiving o, .cancelled =>
      if (w.conns.cell o.conn).waits then some (w.exit o.conn, .closing .cancelled, []) else none
  | .closing _, .cancelled => some (w, .finished (some .cancelled), [])
  | .closing _, .wrote => none
  | .closing raised, _ => some (w, .finished (some raised), [])
  | _, _ => none

/-! ### Background tasks -/

/-- `_release_or_close`, up to its first `await`. -/
def releaseOrClose (w : World) (o : Opened) : World × BackgroundPc :=
  if cfg.settings.websocketPoolEnabled = false then (w.exit o.conn, .closing)
  else if cfg.settings.websocketPoolMaxIdle = 0 ∨
      cfg.settings.websocketPoolIdleTimeoutSeconds ≤ 0 then (w.exit o.conn, .closing)
  else if websocketAppearsOpen cfg.runtime (w.conns.cell o.conn).socket = false then
    (w.exit o.conn, .closing)
  else (w.did o.conn .recv, .probing)

/-- The next of the evicted entries is closed. -/
def closeEvicted (w : World) : List Idle → World × BackgroundPc
  | [] => (w, .finished)
  | entry :: rest => (w.exit entry.conn, .evicting rest)

/-- The locked part of `release`, and what follows it up to the next `await`. -/
def putBack (w : World) (r : Request) (o : Opened) : World × BackgroundPc :=
  let (closeLater, pool) :=
    w.pool.insert cfg.settings.websocketPoolMaxIdle ⟨o.conn, r.key cfg, w.now⟩
  closeEvicted { w.did o.conn .pooled with pool := pool } closeLater

/-- The probe of `release` returns a message, which is logged: the connection is
closed, unless the message cannot be decoded or `_event_type` raises. -/
def discardPending (w : World) (o : Opened) (a : Arrival) : World × BackgroundPc :=
  match websocketMessageToText a.message >>= eventType cfg.runtime.depth with
  | .ok _ => (w.exit o.conn, .closing)
  | .error _ => (w, .finished)

/-- One step of a background task. -/
def backgroundStep (w : World) (r : Request) (o : Opened) :
    BackgroundPc → Outcome → Option (World × BackgroundPc)
  | .scheduled id, .returned =>
      if cfg.settings.websocketSendResponseProcessed then
        some (w.did o.conn (.send (.processed id)), .acknowledging id false)
      else some (releaseOrClose cfg w o)
  | .scheduled _, .cancelled => some (w, .finished)
  | .acknowledging id false, .wrote =>
      some (w.did o.conn (.sent (.processed id)), .acknowledging id true)
  | .acknowledging _ true, .returned => some (releaseOrClose cfg w o)
  | .acknowledging _ _, .raised _ => some (w.exit o.conn, .closing)
  | .acknowledging _ _, .cancelled => some (w, .finished)
  | .probing, .returned =>
      match (w.conns.cell o.conn).unread with
      | a :: rest => some (discardPending cfg (w.take o.conn (.drained a) rest) o a)
      | [] => none
  | .probing, .raised .timeout =>
      if (w.conns.cell o.conn).waits then some (putBack cfg w r o) else none
  | .probing, .raised _ =>
      if (w.conns.cell o.conn).waits then some (w.exit o.conn, .closing) else none
  | .probing, .cancelled =>
      if (w.conns.cell o.conn).waits then some (w, .finished) else none
  | .evicting _, .cancelled => some (w, .finished)
  | .evicting _, .wrote => none
  | .evicting stale, _ => some (closeEvicted w stale)
  | .closing, .wrote => none
  | .closing, _ => some (w, .finished)
  | _, _ => none

/-! ### Closing the pool -/

/-- The next entry of the pool is closed. -/
def closeIdle (w : World) : List Idle → World × CloserPc
  | [] => (w, .finished)
  | entry :: rest => (w.exit entry.conn, .closing rest)

/-- `aclose`, up to its first `await`. -/
def startClose (w : World) : World × CloserPc :=
  let (idle, pool) := w.pool.clear
  closeIdle { w with pool := pool } idle

/-- One step of `aclose`. -/
def closerStep (w : World) : CloserPc → Outcome → Option (World × CloserPc)
  | .closing _, .cancelled => some (w, .finished)
  | .closing _, .wrote => none
  | .closing rest, _ => some (closeIdle w rest)
  | .finished, _ => none

/-! ### The system -/

/-- One step of a task, and the tasks it creates. -/
def taskStep (w : World) : Task → Outcome → Option (World × Task × List Task)
  | .request r pc, outcome =>
      (requestStep cfg w r pc outcome).map fun p => (p.1, .request r p.2.1, p.2.2)
  | .background r o pc, outcome =>
      (backgroundStep cfg w r o pc outcome).map fun p => (p.1, .background r o p.2, [])
  | .closer pc, outcome => (closerStep w pc outcome).map fun p => (p.1, .closer p.2, [])

/-- The state of the bridge. -/
structure State where
  world : World
  tasks : List Task

/-- What happens next: a message arrives on a connection, the state of a
connection changes, time passes, a request comes in, `aclose` is called, a task
goes on. -/
inductive Action where
  | arrive (c : ℕ) (message : Message)
  | setSocket (c : ℕ) (socket : Socket)
  | tick (seconds : ℚ)
  | request (url : PyStr) (rawHeaders : List (List UInt8 × List UInt8)) (body : ByteArray)
  | aclose
  | run (task : ℕ) (outcome : Outcome)

/-- One step of the system. -/
def bridgeStep (s : State) : Action → Option State
  | .arrive c message =>
      if c < s.world.conns.next then
        some { s with world := { s.world with
          conns := s.world.conns.set c ((s.world.conns.cell c).arrive message) } }
      else none
  | .setSocket c socket =>
      if c < s.world.conns.next then
        some { s with world := { s.world with
          conns := s.world.conns.set c { s.world.conns.cell c with socket := socket } } }
      else none
  | .tick seconds =>
      if 0 < seconds then some { s with world := { s.world with now := s.world.now + seconds } }
      else none
  | .request url rawHeaders body =>
      let r : Request := ⟨s.tasks.length, url, rawHeaders, body⟩
      let (w, pc) := startRequest cfg s.world r
      some ⟨w, s.tasks ++ [.request r pc]⟩
  | .aclose =>
      let (w, pc) := startClose s.world
      some ⟨w, s.tasks ++ [.closer pc]⟩
  | .run i outcome =>
      match s.tasks[i]? with
      | some task =>
          (taskStep cfg s.world task outcome).map fun p =>
            ⟨p.1, s.tasks.set i p.2.1 ++ p.2.2⟩
      | none => none

/-- The bridge: no connection, an empty pool, no task. -/
def bridge : System State Action where
  init := ⟨⟨⟨fun _ => Conn.blank, 0⟩, Pool.empty, 0⟩, []⟩
  step := bridgeStep cfg

end CodexResetProxy
