import CodexResetProxy.Bridge.Retries

/-!
The attempts of `open_websocket_bridge_with_retries`, one by one, with what each
of them does on its connection.

An attempt fails while it connects, in its `send`, or in its first `recv`. Each
layer closes what was opened and raises an error of its own, and the loop goes on
with the last of them.

* `Course`: what becomes of the operations of a call; `BridgeOutcome`: what
  becomes of one attempt, with the status and code of its failure.
* `openBridgeRecorded`: the call, with one `AttemptLog` for each attempt; without
  the logs it is `openWebsocketBridgeWithRetries`.
* `WebSocketRetryLaw`, `webSocketRetryLaw`: what the call returns or raises, and
  what its attempts send and close, for every sequence of outcomes.
-/

namespace CodexResetProxy

open PyStr Retry

/-! ### What a call meets -/

/-- What a call meets: which idle entries appear usable at each attempt, what
becomes of each idle connection and of the fresh ones by order of opening, and
whether the factory had returned a context when an opening fails. -/
structure Course where
  usable : ℕ → Idle → Bool
  idle : ℕ → Usage
  fresh : ℕ → Opening
  context : ℕ → Bool

/-- The connection of an attempt: an idle one, or a fresh one by its number. -/
inductive Source where
  | reused (entry : Idle)
  | fresh (i : ℕ)
  deriving DecidableEq

/-- What an attempt gets: its connection, the stale entries that `_checkout` closes,
and what is left. -/
structure Taken where
  source : Source
  stale : List Idle
  left : Sockets

/-- The connection that an attempt uses. -/
def takeSource (usable : Idle → Bool) (key : WebSocketPoolKey) (pooled : Bool) (s : Sockets) :
    Taken :=
  if pooled then
    let out := s.pool.checkout usable key
    match out.selected with
    | some entry => ⟨.reused entry, out.stale, ⟨out.pool, s.opened⟩⟩
    | none => ⟨.fresh s.opened, out.stale, ⟨out.pool, s.opened + 1⟩⟩
  else ⟨.fresh s.opened, [], ⟨s.pool, s.opened + 1⟩⟩

/-- What the attempts get, from number `k` on. -/
def Course.taken (x : Course) (key : WebSocketPoolKey) (pooled : Bool) :
    ℕ → Sockets → ℕ → Taken
  | k, s, 0 => takeSource (x.usable k) key pooled s
  | k, s, i + 1 => x.taken key pooled (k + 1) (takeSource (x.usable k) key pooled s).left i

/-- What becomes of an attempt: it fails while it connects, in its `send` or in its
first `recv`, or it receives its first message. -/
inductive BridgeOutcome where
  | connect (e : Exc)
  | send (e : Exc)
  | first (e : Exc)
  | received (message : Message)

/-- The status and the error code of a failed attempt. -/
def BridgeOutcome.failure : BridgeOutcome → Option (ℕ × String)
  | .connect .timeout | .send .timeout => some (504, "websocket_open_timeout")
  | .connect _ | .send _ => some (502, "websocket_open_error")
  | .first .timeout => some (504, "websocket_first_message_timeout")
  | .first _ => some (502, "websocket_first_message_error")
  | .received _ => none

/-- What becomes of a connection that is used. -/
def Usage.outcome (u : Usage) : BridgeOutcome :=
  match u.send with
  | some e => .send e
  | none =>
      match u.recv with
      | .ok message => .received message
      | .error e => .first e

/-- What becomes of a connection that is opened first. -/
def Opening.outcome (o : Opening) : BridgeOutcome :=
  match o.connect with
  | some e => .connect e
  | none => o.usage.outcome

/-- What becomes of an attempt on a connection. -/
def Course.outcome (x : Course) : Source → BridgeOutcome
  | .reused entry => (x.idle entry.conn).outcome
  | .fresh i => (x.fresh i).outcome

/-- There is a context to close. -/
def Course.hasContext (x : Course) : Source → Bool
  | .reused _ => true
  | .fresh i => (x.fresh i).connect.isNone || x.context i

/-- A first `recv` fails with a `TimeoutError`, another `OSError` or a
`WebSocketException` only. -/
def BridgeOutcome.Caught : BridgeOutcome → Prop
  | .first (.other _) => False
  | _ => True

/-! ### What an attempt does -/

/-- What is done on the connection of an attempt. -/
inductive ConnEvent where
  | connect (url : PyStr) (headers : List (PyStr × PyStr))
  | send (payload : List (PyStr × Json))
  | recv
  | closed

/-- An attempt: its connection, the stale entries it closed before, and what it did
on its connection. -/
structure AttemptLog where
  source : Source
  stale : List Idle
  events : List ConnEvent

variable (cfg : Config)

/-- `response.create` is sent, and the first message received; after a failure the
connection is closed. -/
def useRecorded (payload : List (PyStr × Json)) (u : Usage) : BridgeAttempt × List ConnEvent :=
  match u.send with
  | some e => (.failed (openError e), [.send payload, .closed])
  | none =>
      match u.recv with
      | .ok message => (.done message, [.send payload, .recv])
      | .error e =>
          match firstMessageError? cfg e with
          | some err => (.failed err, [.send payload, .recv, .closed])
          | none => (.raised (.exc e), [.send payload, .recv])

/-- An attempt on a connection. A context is closed when it does not open. -/
def useSource (x : Course) (r : Request) (payload : List (PyStr × Json)) :
    Source → BridgeAttempt × List ConnEvent
  | .reused entry => useRecorded cfg payload (x.idle entry.conn)
  | .fresh i =>
      match (x.fresh i).connect with
      | some e =>
          (.failed (openError e),
            .connect r.url r.headers :: if x.context i then [.closed] else [])
      | none =>
          let used := useRecorded cfg payload (x.fresh i).usage
          (used.1, .connect r.url r.headers :: used.2)

/-- One attempt of `open_websocket_bridge_with_retries`, with the connection it
leaves open. -/
def attemptBridge (x : Course) (r : Request) (pooled : Bool) (attempt : ℕ) (s : Sockets) :
    Attempt BridgeError Raised (Source × Message) × Sockets × List AttemptLog :=
  match buildResponseCreateRequest cfg.runtime.depth r.body with
  | .error (.bridge e) => (.raised (.bridge { e with attempts := attempt }), s, [])
  | .error e => (.raised e, s, [])
  | .ok payload =>
      let taken := takeSource (x.usable attempt) (r.key cfg) pooled s
      let used := useSource cfg x r payload taken.source
      (used.1.map fun message => (taken.source, message), taken.left,
        [⟨taken.source, taken.stale, used.2⟩])

/-- `OpenedWebSocketBridge`: its connection, the attempt that opened it, its first
message. -/
structure OpenedBridge where
  source : Source
  attempts : ℕ
  firstMessage : Message

/-- `open_websocket_bridge_with_retries`, with what it leaves of the pool and the
logs of its attempts. -/
def openBridgeRecorded (x : Course) (r : Request) (pool : Option Pool) :
    Except Raised OpenedBridge × Sockets × List AttemptLog :=
  match run (recorded (attemptBridge cfg x r pool.isSome)) cfg.settings.upstreamMaxAttempts 1
      (⟨pool.getD .empty, 0⟩, []) (firstMessageTimeout cfg) with
  | (.done (attempt, source, message), s) => (.ok ⟨source, attempt, message⟩, s)
  | (.failed e, s) =>
      (.error (.bridge { e with attempts := cfg.settings.upstreamMaxAttempts }), s)
  | (.raised e, s) => (.error e, s)

/-! ### The law -/

/-- The frame that an event sends. -/
def ConnEvent.payload? : ConnEvent → Option (List (PyStr × Json))
  | .send payload => some payload
  | _ => none

/-- The event closes the connection. -/
def ConnEvent.isClosed : ConnEvent → Bool
  | .closed => true
  | _ => false

/-- The idle entry of a source. -/
def Source.entry? : Source → Option Idle
  | .reused entry => some entry
  | .fresh _ => none

/-- The number of a fresh source. -/
def Source.fresh? : Source → Option ℕ
  | .reused _ => none
  | .fresh i => some i

/-- The pool entries that an attempt takes: the one it uses and the stale ones. -/
def AttemptLog.touched (log : AttemptLog) : List Idle := log.source.entry?.toList ++ log.stale

/-- What is done on a connection that was closed: nothing. -/
def ClosedLast (events : List ConnEvent) : Prop :=
  ∀ pre post, events = pre ++ .closed :: post → post = []

/-- What attempt `1 + i` gets. -/
def takenAt (x : Course) (r : Request) (pool : Option Pool) (i : ℕ) : Taken :=
  x.taken (r.key cfg) pool.isSome 1 ⟨pool.getD .empty, 0⟩ i

/-- What becomes of attempt `1 + i`. -/
def outcomeAt (x : Course) (r : Request) (pool : Option Pool) (i : ℕ) : BridgeOutcome :=
  x.outcome (takenAt cfg x r pool i).source

/-- What `open_websocket_bridge_with_retries` guarantees of a call.

* `rejected`: a body that cannot be wrapped ends it before anything is touched;
* `received`: the first attempt with a message is the last one, and its connection
  is returned open; `exhausted`: without one, the last failure is raised;
* `sends`: an attempt sends `response.create` at most once, and always the same;
* `closes`: a failed attempt closes what it opened, once and as the last thing;
* `distinct`, `opened`: no entry and no connection is used twice. -/
structure WebSocketRetryLaw (x : Course) (r : Request) (pool : Option Pool)
    (call : Except Raised OpenedBridge × Sockets × List AttemptLog) : Prop where
  rejected : ∀ e, buildResponseCreateRequest cfg.runtime.depth r.body = .error (.bridge e) →
    e.statusCode = 400 ∧
      call = (.error (.bridge { e with attempts := 1 }), ⟨pool.getD .empty, 0⟩, [])
  received : ∀ payload i message,
    buildResponseCreateRequest cfg.runtime.depth r.body = .ok payload →
    i < cfg.settings.upstreamMaxAttempts →
    (∀ j < i, (outcomeAt cfg x r pool j).failure ≠ none) →
    outcomeAt cfg x r pool i = .received message →
    ∃ logs log, call.1 = .ok ⟨(takenAt cfg x r pool i).source, 1 + i, message⟩ ∧
      call.2.2 = logs ++ [log] ∧ logs.length = i ∧
      log.source = (takenAt cfg x r pool i).source ∧ log.events.countP ConnEvent.isClosed = 0
  exhausted : ∀ payload status code,
    buildResponseCreateRequest cfg.runtime.depth r.body = .ok payload →
    (∀ j < cfg.settings.upstreamMaxAttempts, (outcomeAt cfg x r pool j).failure ≠ none) →
    (outcomeAt cfg x r pool (cfg.settings.upstreamMaxAttempts - 1)).failure
      = some (status, code) →
    ∃ err : BridgeError,
      call.1 = .error (.bridge { err with attempts := cfg.settings.upstreamMaxAttempts }) ∧
      err.statusCode = status ∧ err.errorCode = code ∧
      call.2.2.length = cfg.settings.upstreamMaxAttempts
  sends : ∀ log ∈ call.2.2, ∀ payload,
    buildResponseCreateRequest cfg.runtime.depth r.body = .ok payload →
    log.events.filterMap ConnEvent.payload? = [] ∨
      log.events.filterMap ConnEvent.payload? = [payload]
  closes : ∀ i log, call.2.2[i]? = some log → (outcomeAt cfg x r pool i).failure ≠ none →
    log.events.countP ConnEvent.isClosed = (if x.hasContext log.source then 1 else 0) ∧
      ClosedLast log.events
  distinct : (pool.getD .empty).entries.Perm
    (call.2.2.flatMap AttemptLog.touched ++ call.2.1.pool.entries)
  opened : call.2.2.filterMap (fun log => log.source.fresh?) = List.range call.2.1.opened

variable {cfg} {x : Course} {r : Request} {pooled : Bool} {payload : List (PyStr × Json)}
  {message : Message} {source : Source} {s : Sockets}

/-! ### One attempt -/

lemma closedLast_concat {l : List ConnEvent} (h : l.countP ConnEvent.isClosed = 0) :
    ClosedLast (l ++ [.closed]) := by
  intro pre post hsplit
  rcases List.eq_nil_or_concat post with rfl | ⟨post, e, rfl⟩
  · rfl
  · rw [List.concat_eq_append, ← List.cons_append, ← List.append_assoc] at hsplit
    have hl := (List.append_inj' hsplit rfl).1
    rw [hl] at h
    simp [ConnEvent.isClosed] at h

lemma closedLast_of_count {l : List ConnEvent} (h : l.countP ConnEvent.isClosed = 0) :
    ClosedLast l := by
  rintro pre post rfl
  simp [ConnEvent.isClosed] at h

/-- An attempt that receives a message leaves its connection open. -/
lemma useSource_of_received (h : x.outcome source = .received message) :
    (useSource cfg x r payload source).1 = .done message ∧
      (useSource cfg x r payload source).2.countP ConnEvent.isClosed = 0 := by
  have hused : ∀ u : Usage, u.outcome = .received message →
      (useRecorded cfg payload u).1 = .done message ∧
        (useRecorded cfg payload u).2.countP ConnEvent.isClosed = 0 := by
    intro u hu
    rw [Usage.outcome] at hu
    cases hsend : u.send with
    | some e => simp [hsend] at hu
    | none =>
        cases hrecv : u.recv with
        | error e => simp [hsend, hrecv] at hu
        | ok m =>
            obtain rfl : m = message := by simpa [hsend, hrecv] using hu
            simp [useRecorded, hsend, hrecv, ConnEvent.isClosed]
  cases source with
  | reused entry => exact hused _ h
  | fresh i =>
      have hopen : (x.fresh i).outcome = .received message := h
      rw [Opening.outcome] at hopen
      cases hconnect : (x.fresh i).connect with
      | some e => simp [hconnect] at hopen
      | none =>
          rw [hconnect] at hopen
          obtain ⟨hdone, hcount⟩ := hused _ hopen
          rw [useSource, hconnect]
          exact ⟨hdone, by simpa [ConnEvent.isClosed] using hcount⟩

/-- What a failed attempt raises and closes. -/
structure Fails (cfg : Config) (x : Course) (r : Request) (payload : List (PyStr × Json))
    (source : Source) (status : ℕ) (code : String) : Prop where
  raises : ∃ err, (useSource cfg x r payload source).1 = .failed err ∧
    err.statusCode = status ∧ err.errorCode = code
  closes : (useSource cfg x r payload source).2.countP ConnEvent.isClosed
    = if x.hasContext source then 1 else 0
  last : ClosedLast (useSource cfg x r payload source).2

/-- The error for a connection that does not open, or a `send` that fails. -/
lemma openError_code (e : Exc) :
    (BridgeOutcome.connect e).failure = some ((openError e).statusCode, (openError e).errorCode) ∧
      (BridgeOutcome.send e).failure
        = some ((openError e).statusCode, (openError e).errorCode) := by
  cases e with
  | timeout | os name | webSocket name | other name => exact ⟨rfl, rfl⟩

/-- The error for a first `recv` that fails. -/
lemma firstMessageError_code {e : Exc} (h : (BridgeOutcome.first e).Caught) :
    ∃ err, firstMessageError? cfg e = some err ∧
      (BridgeOutcome.first e).failure = some (err.statusCode, err.errorCode) := by
  cases e with
  | timeout | os name | webSocket name => exact ⟨_, rfl, rfl⟩
  | other name => exact h.elim

/-- A failure on an open connection. -/
lemma useRecorded_of_failure {u : Usage} {status : ℕ} {code : String} (hcaught : u.outcome.Caught)
    (h : u.outcome.failure = some (status, code)) :
    (∃ err, (useRecorded cfg payload u).1 = .failed err ∧ err.statusCode = status ∧
        err.errorCode = code) ∧
      ∃ l, (useRecorded cfg payload u).2 = l ++ [.closed] ∧ l.countP ConnEvent.isClosed = 0 := by
  rw [Usage.outcome] at hcaught h
  cases hsend : u.send with
  | some e =>
      rw [hsend] at h
      have hcode := (openError_code e).2
      obtain ⟨hstatus, herror⟩ : (openError e).statusCode = status ∧
          (openError e).errorCode = code := by simpa [hcode] using h
      simp only [useRecorded, hsend]
      exact ⟨⟨_, rfl, hstatus, herror⟩, [.send payload], rfl, rfl⟩
  | none =>
      rw [hsend] at h hcaught
      cases hrecv : u.recv with
      | ok m => simp [hrecv, BridgeOutcome.failure] at h
      | error e =>
          rw [hrecv] at h hcaught
          obtain ⟨err, herr, hcode⟩ := @firstMessageError_code cfg e hcaught
          obtain ⟨hstatus, herror⟩ : err.statusCode = status ∧ err.errorCode = code := by
            simpa [hcode] using h
          simp only [useRecorded, hsend, hrecv, herr]
          exact ⟨⟨_, rfl, hstatus, herror⟩, [.send payload, .recv], rfl, rfl⟩

/-- **A failed attempt** raises the error of the layer it fails in, and closes what
it opened. -/
theorem useSource_of_failure {status : ℕ} {code : String} (hcaught : (x.outcome source).Caught)
    (h : (x.outcome source).failure = some (status, code)) :
    Fails cfg x r payload source status code := by
  cases source with
  | reused entry =>
      obtain ⟨hraises, l, hl, hcount⟩ := @useRecorded_of_failure cfg payload _ _ _ hcaught h
      have hevents : (useSource cfg x r payload (.reused entry)).2 = l ++ [.closed] := hl
      refine ⟨hraises, ?_, hevents ▸ closedLast_concat hcount⟩
      rw [hevents]
      simp [hcount, Course.hasContext, ConnEvent.isClosed]
  | fresh i =>
      have hopen : (x.fresh i).outcome.failure = some (status, code) := h
      have hcaught' : (x.fresh i).outcome.Caught := hcaught
      rw [Opening.outcome] at hopen hcaught'
      cases hconnect : (x.fresh i).connect with
      | some e =>
          -- a connection that does not open, with a context or without
          rw [hconnect] at hopen
          have hcode := (openError_code e).1
          obtain ⟨hstatus, herror⟩ : (openError e).statusCode = status ∧
              (openError e).errorCode = code := by simpa [hcode] using hopen
          have hused : useSource cfg x r payload (.fresh i) = (.failed (openError e),
              .connect r.url r.headers :: if x.context i then [.closed] else []) := by
            simp [useSource, hconnect]
          refine ⟨⟨openError e, by rw [hused], hstatus, herror⟩, ?_, ?_⟩
          · rw [hused]
            cases hcontext : x.context i <;>
              simp [Course.hasContext, hconnect, hcontext, ConnEvent.isClosed]
          · rw [hused]
            cases x.context i with
            | true => exact closedLast_concat (l := [.connect r.url r.headers]) rfl
            | false => exact closedLast_of_count rfl
      | none =>
          rw [hconnect] at hopen hcaught'
          obtain ⟨hraises, l, hl, hcount⟩ :=
            @useRecorded_of_failure cfg payload _ _ _ hcaught' hopen
          have hused : useSource cfg x r payload (.fresh i)
              = ((useRecorded cfg payload (x.fresh i).usage).1,
                  (.connect r.url r.headers :: l) ++ [.closed]) := by
            simp [useSource, hconnect, hl]
          have hcount' : (ConnEvent.connect r.url r.headers :: l).countP ConnEvent.isClosed
              = 0 := by
            simpa [ConnEvent.isClosed] using hcount
          refine ⟨by rw [hused]; exact hraises, ?_, ?_⟩
          · rw [hused, List.countP_append, hcount']
            simp [Course.hasContext, hconnect, ConnEvent.isClosed]
          · rw [hused]
            exact closedLast_concat hcount'

/-- An attempt sends `response.create` at most once. -/
lemma useSource_sends (source : Source) :
    (useSource cfg x r payload source).2.filterMap ConnEvent.payload? = [] ∨
      (useSource cfg x r payload source).2.filterMap ConnEvent.payload? = [payload] := by
  have hused : ∀ u : Usage,
      (useRecorded cfg payload u).2.filterMap ConnEvent.payload? = [payload] := by
    intro u
    rw [useRecorded]
    cases u.send with
    | some e => rfl
    | none =>
        cases u.recv with
        | ok m => rfl
        | error e =>
            dsimp only
            cases firstMessageError? cfg e <;> rfl
  cases source with
  | reused entry => exact Or.inr (hused _)
  | fresh i =>
      rw [useSource]
      cases (x.fresh i).connect with
      | none => exact Or.inr (hused _)
      | some e => cases x.context i <;> simp [ConnEvent.payload?]

/-! ### The attempts one after the other -/

/-- The log of an attempt. -/
def attemptLog (cfg : Config) (x : Course) (r : Request) (payload : List (PyStr × Json))
    (taken : Taken) : AttemptLog :=
  ⟨taken.source, taken.stale, (useSource cfg x r payload taken.source).2⟩

section Loop

variable (hbody : buildResponseCreateRequest cfg.runtime.depth r.body = .ok payload)
include hbody

lemma attemptBridge_eq (k : ℕ) (s : Sockets) :
    attemptBridge cfg x r pooled k s
      = ((useSource cfg x r payload (takeSource (x.usable k) (r.key cfg) pooled s).source).1.map
            fun message => ((takeSource (x.usable k) (r.key cfg) pooled s).source, message),
          (takeSource (x.usable k) (r.key cfg) pooled s).left,
          [attemptLog cfg x r payload (takeSource (x.usable k) (r.key cfg) pooled s)]) := by
  rw [attemptBridge, hbody]
  rfl

lemma results_attemptBridge (k i : ℕ) (s : Sockets) :
    results (plain (attemptBridge cfg x r pooled)) k s i
      = (useSource cfg x r payload (x.taken (r.key cfg) pooled k s i).source).1.map
          fun message => ((x.taken (r.key cfg) pooled k s i).source, message) := by
  induction i generalizing k s with
  | zero => rw [results, plain, attemptBridge_eq hbody, Course.taken]
  | succ i ih => rw [results, plain, ih, attemptBridge_eq hbody, Course.taken]

lemma states_attemptBridge (k i : ℕ) (s : Sockets) :
    states (plain (attemptBridge cfg x r pooled)) k s (i + 1)
      = (x.taken (r.key cfg) pooled k s i).left := by
  induction i generalizing k s with
  | zero => rw [states, states, plain, attemptBridge_eq hbody, Course.taken]
  | succ i ih => rw [states, ih, plain, attemptBridge_eq hbody, Course.taken]

lemma record_attemptBridge (k n : ℕ) (s : Sockets) :
    record (attemptBridge cfg x r pooled) k s n
      = (List.range n).map fun i =>
          attemptLog cfg x r payload (x.taken (r.key cfg) pooled k s i) := by
  induction n generalizing k s with
  | zero => rfl
  | succ n ih =>
      rw [record, ih, attemptBridge_eq hbody, List.range_succ_eq_map, List.map_cons, List.map_map]
      rfl

/-- What a failed attempt leaves of the loop. -/
lemma isFailed_attemptBridge {k i : ℕ}
    (hcaught : (x.outcome (x.taken (r.key cfg) pooled k s i).source).Caught)
    (h : (x.outcome (x.taken (r.key cfg) pooled k s i).source).failure ≠ none)
    (t : List AttemptLog) :
    (results (recorded (attemptBridge cfg x r pooled)) k (s, t) i).isFailed = true := by
  obtain ⟨⟨status, code⟩, hfailure⟩ := Option.ne_none_iff_exists'.mp h
  obtain ⟨err, herr, -, -⟩ := (@useSource_of_failure cfg x r payload _ _ _ hcaught hfailure).raises
  rw [results_recorded, results_attemptBridge hbody, herr]
  rfl

end Loop

/-- What `takeSource` takes out of the pool. -/
lemma takeSource_perm (usable : Idle → Bool) (key : WebSocketPoolKey) (pooled : Bool)
    (s : Sockets) :
    s.pool.entries.Perm ((takeSource usable key pooled s).source.entry?.toList ++
      (takeSource usable key pooled s).stale ++
      (takeSource usable key pooled s).left.pool.entries) := by
  rw [takeSource]
  split_ifs
  · have hmoves := s.pool.checkout_perm usable key
    dsimp only
    cases hselected : (s.pool.checkout usable key).selected with
    | none =>
        rw [hselected] at hmoves
        exact hmoves
    | some entry =>
        rw [hselected] at hmoves
        exact hmoves
  · exact .refl _

/-- Fresh connections are numbered in order. -/
lemma takeSource_opened (usable : Idle → Bool) (key : WebSocketPoolKey) (pooled : Bool)
    (s : Sockets) :
    List.range s.opened ++ (takeSource usable key pooled s).source.fresh?.toList
      = List.range (takeSource usable key pooled s).left.opened := by
  rw [takeSource]
  split_ifs
  · dsimp only
    cases (s.pool.checkout usable key).selected with
    | none => exact List.range_succ.symm
    | some entry => exact List.append_nil _
  · exact List.range_succ.symm

/-- The entries that the attempts take are taken once. -/
lemma record_perm (k n : ℕ) (s : Sockets) :
    s.pool.entries.Perm ((record (attemptBridge cfg x r pooled) k s n).flatMap AttemptLog.touched ++
      (states (plain (attemptBridge cfg x r pooled)) k s n).pool.entries) := by
  induction n generalizing k s with
  | zero => exact .refl _
  | succ n ih =>
      rw [record, states, List.flatMap_append, List.append_assoc]
      have hstep : s.pool.entries.Perm
          (((attemptBridge cfg x r pooled k s).2.2).flatMap AttemptLog.touched ++
            (attemptBridge cfg x r pooled k s).2.1.pool.entries) := by
        rw [attemptBridge]
        split
        · exact .refl _
        · exact .refl _
        · simpa [AttemptLog.touched] using takeSource_perm (x.usable k) (r.key cfg) pooled s
      exact hstep.trans (List.Perm.append_left _ (ih (k + 1) _))

/-- The connections that the attempts open are numbered in order. -/
lemma record_opened (k n : ℕ) (s : Sockets) :
    List.range s.opened ++ (record (attemptBridge cfg x r pooled) k s n).filterMap
        (fun log => log.source.fresh?)
      = List.range (states (plain (attemptBridge cfg x r pooled)) k s n).opened := by
  induction n generalizing k s with
  | zero => exact List.append_nil _
  | succ n ih =>
      rw [record, states, List.filterMap_append, ← List.append_assoc]
      have hstep : List.range s.opened ++ ((attemptBridge cfg x r pooled k s).2.2).filterMap
          (fun log => log.source.fresh?)
            = List.range (attemptBridge cfg x r pooled k s).2.1.opened := by
        rw [attemptBridge]
        split
        · exact List.append_nil _
        · exact List.append_nil _
        · rw [← takeSource_opened (x.usable k) (r.key cfg) pooled s]
          cases hfresh : (takeSource (x.usable k) (r.key cfg) pooled s).source.fresh? <;>
            simp [hfresh]
      rw [hstep]
      exact ih (k + 1) _

/-! ### The call -/

section Call

variable {pool : Option Pool}
  (hbody : buildResponseCreateRequest cfg.runtime.depth r.body = .ok payload)
  (hcaught : ∀ i, (outcomeAt cfg x r pool i).Caught)
include hbody hcaught

/-- **The call with an attempt that receives a message** in time. -/
theorem openBridgeRecorded_of_first {i : ℕ} (hi : i < cfg.settings.upstreamMaxAttempts)
    (hbefore : ∀ j < i, (outcomeAt cfg x r pool j).failure ≠ none)
    (hreceived : outcomeAt cfg x r pool i = .received message) :
    openBridgeRecorded cfg x r pool
      = (.ok ⟨(takenAt cfg x r pool i).source, 1 + i, message⟩, (takenAt cfg x r pool i).left,
          (List.range (i + 1)).map fun j =>
            attemptLog cfg x r payload (takenAt cfg x r pool j)) := by
  have hdone := (@useSource_of_received cfg x r payload message _ hreceived).1
  have hresult : results (recorded (attemptBridge cfg x r pool.isSome)) 1
      (⟨pool.getD .empty, 0⟩, []) i = .done ((takenAt cfg x r pool i).source, message) := by
    rw [results_recorded, results_attemptBridge hbody]
    show (useSource cfg x r payload (takenAt cfg x r pool i).source).1.map _ = _
    rw [hdone]
    rfl
  have hrun := run_of_first hi 1 _ (firstMessageTimeout cfg) (by rw [hresult]; rfl)
    fun j hj => isFailed_attemptBridge hbody (hcaught j) (hbefore j hj) []
  rw [hresult, states_recorded, states_attemptBridge hbody, record_attemptBridge hbody,
    List.nil_append] at hrun
  rw [openBridgeRecorded, hrun]
  rfl

/-- **The call without a first message**: it ends with the failure of its last
attempt. -/
theorem openBridgeRecorded_of_never {status : ℕ} {code : String}
    (hpos : 1 ≤ cfg.settings.upstreamMaxAttempts)
    (hall : ∀ j < cfg.settings.upstreamMaxAttempts, (outcomeAt cfg x r pool j).failure ≠ none)
    (hlast : (outcomeAt cfg x r pool (cfg.settings.upstreamMaxAttempts - 1)).failure
      = some (status, code)) :
    ∃ err : BridgeError, err.statusCode = status ∧ err.errorCode = code ∧
      openBridgeRecorded cfg x r pool
        = (.error (.bridge { err with attempts := cfg.settings.upstreamMaxAttempts }),
            (takenAt cfg x r pool (cfg.settings.upstreamMaxAttempts - 1)).left,
            (List.range cfg.settings.upstreamMaxAttempts).map fun j =>
              attemptLog cfg x r payload (takenAt cfg x r pool j)) := by
  obtain ⟨n, hn⟩ := Nat.exists_eq_succ_of_ne_zero (Nat.ne_zero_of_lt hpos)
  rw [hn] at hall hlast
  obtain ⟨err, herr, hstatus, hcode⟩ :=
    (@useSource_of_failure cfg x r payload _ _ _ (hcaught n) hlast).raises
  have hresult : results (recorded (attemptBridge cfg x r pool.isSome)) 1
      (⟨pool.getD .empty, 0⟩, []) n = .failed err := by
    rw [results_recorded, results_attemptBridge hbody]
    show (useSource cfg x r payload (takenAt cfg x r pool n).source).1.map _ = _
    rw [herr]
    rfl
  have hrun := run_of_forall_last 1 _ (firstMessageTimeout cfg)
    (fun j hj => isFailed_attemptBridge hbody (hcaught j) (hall j (Nat.lt_succ_of_lt hj)) [])
    hresult
  rw [states_recorded, states_attemptBridge hbody, record_attemptBridge hbody,
    List.nil_append] at hrun
  refine ⟨err, hstatus, hcode, ?_⟩
  rw [openBridgeRecorded, hn, hrun]
  rfl

end Call

/-- What `build_response_create_request` rejects has status 400. -/
lemma statusCode_of_rejected {depth : ℕ} {body : ByteArray} {e : BridgeError}
    (h : buildResponseCreateRequest depth body = .error (.bridge e)) : e.statusCode = 400 := by
  rw [buildResponseCreateRequest] at h
  split at h
  · obtain rfl := Raised.bridge.inj (Except.error.inj h)
    rfl
  · split at h
    · obtain rfl := Raised.bridge.inj (Except.error.inj h)
      rfl
    · simp at h
    · simp at h
    · simp at h
    · obtain rfl := Raised.bridge.inj (Except.error.inj h)
      rfl

/-- The call with a body that is rejected. -/
lemma openBridgeRecorded_of_rejected {pool : Option Pool} {e : BridgeError}
    (hpos : 1 ≤ cfg.settings.upstreamMaxAttempts)
    (hbody : buildResponseCreateRequest cfg.runtime.depth r.body = .error (.bridge e)) :
    openBridgeRecorded cfg x r pool
      = (.error (.bridge { e with attempts := 1 }), ⟨pool.getD .empty, 0⟩, []) := by
  obtain ⟨n, hn⟩ := Nat.exists_eq_succ_of_ne_zero (Nat.ne_zero_of_lt hpos)
  rw [openBridgeRecorded, hn, run, recorded, attemptBridge, hbody]
  rfl

lemma failure_eq_none_iff {o : BridgeOutcome} :
    o.failure = none ↔ ∃ message, o = .received message := by
  cases o with
  | received message => simp [BridgeOutcome.failure]
  | connect e | send e | first e => cases e <;> simp [BridgeOutcome.failure]

/-- The logs of the first attempts, in a law. -/
lemma attemptLogs_getElem? {pool : Option Pool} {n i : ℕ} {log : AttemptLog}
    (h : ((List.range n).map fun j =>
      attemptLog cfg x r payload (takenAt cfg x r pool j))[i]? = some log) :
    log = attemptLog cfg x r payload (takenAt cfg x r pool i) := by
  obtain ⟨j, hj, rfl⟩ : ∃ j, (List.range n)[i]? = some j ∧
      attemptLog cfg x r payload (takenAt cfg x r pool j) = log := by simpa using h
  obtain ⟨_, rfl⟩ := List.getElem?_eq_some_iff.mp hj
  simp

/-- What the attempts of a call do, however it ends. -/
lemma attemptLogs_law {pool : Option Pool} {n : ℕ}
    (hbody : buildResponseCreateRequest cfg.runtime.depth r.body = .ok payload)
    (hcaught : ∀ i, (outcomeAt cfg x r pool i).Caught) (logs : List AttemptLog)
    (hlogs : logs = (List.range (n + 1)).map fun j =>
      attemptLog cfg x r payload (takenAt cfg x r pool j)) :
    (∀ log ∈ logs, log.events.filterMap ConnEvent.payload? = [] ∨
        log.events.filterMap ConnEvent.payload? = [payload]) ∧
      (∀ i log, logs[i]? = some log → (outcomeAt cfg x r pool i).failure ≠ none →
        log.events.countP ConnEvent.isClosed = (if x.hasContext log.source then 1 else 0) ∧
          ClosedLast log.events) ∧
      (pool.getD .empty).entries.Perm
        (logs.flatMap AttemptLog.touched ++ (takenAt cfg x r pool n).left.pool.entries) ∧
      logs.filterMap (fun log => log.source.fresh?)
        = List.range (takenAt cfg x r pool n).left.opened := by
  have hrecord : record (attemptBridge cfg x r pool.isSome) 1 ⟨pool.getD .empty, 0⟩ (n + 1)
      = logs := by rw [record_attemptBridge hbody, hlogs]; rfl
  have hstates := @states_attemptBridge cfg x r pool.isSome payload hbody 1 n ⟨pool.getD .empty, 0⟩
  have hperm := @record_perm cfg x r pool.isSome 1 (n + 1) ⟨pool.getD .empty, 0⟩
  have hopened := @record_opened cfg x r pool.isSome 1 (n + 1) ⟨pool.getD .empty, 0⟩
  rw [hrecord, hstates] at hperm hopened
  refine ⟨fun log hlog => ?_, fun i log hlog hfailure => ?_, hperm, hopened⟩
  · rw [hlogs] at hlog
    obtain ⟨j, -, rfl⟩ := List.mem_map.mp hlog
    exact useSource_sends _
  · rw [hlogs] at hlog
    obtain rfl := attemptLogs_getElem? hlog
    obtain ⟨⟨status, code⟩, hcode⟩ := Option.ne_none_iff_exists'.mp hfailure
    have hfails : Fails cfg x r payload (takenAt cfg x r pool i).source status code :=
      useSource_of_failure (hcaught i) hcode
    exact ⟨hfails.closes, hfails.last⟩

/-- **The retry law of the bridge**, for every sequence of outcomes of the attempts,
with a pool and without. -/
theorem webSocketRetryLaw (cfg : Config) (x : Course) (r : Request) (pool : Option Pool)
    (hpos : 1 ≤ cfg.settings.upstreamMaxAttempts)
    (hbody : ∀ e, buildResponseCreateRequest cfg.runtime.depth r.body = .error e →
      ∃ b, e = .bridge b)
    (hcaught : ∀ i, (outcomeAt cfg x r pool i).Caught) :
    WebSocketRetryLaw cfg x r pool (openBridgeRecorded cfg x r pool) := by
  cases hbuild : buildResponseCreateRequest cfg.runtime.depth r.body with
  | error e =>
      -- a body that is refused: no attempt is made
      obtain ⟨b, rfl⟩ := hbody e hbuild
      rw [openBridgeRecorded_of_rejected hpos hbuild]
      constructor
      case rejected =>
        intro e he
        obtain rfl : b = e := by simpa [hbuild] using he
        exact ⟨statusCode_of_rejected hbuild, rfl⟩
      case received => simp [hbuild]
      case exhausted => simp [hbuild]
      case sends => simp
      case closes => simp
      case distinct => exact .refl _
      case opened => rfl
  | ok payload =>
      have hunique : ∀ payload',
          buildResponseCreateRequest cfg.runtime.depth r.body = .ok payload' → payload' = payload :=
        fun payload' h => Except.ok.inj (h.symm.trans hbuild)
      -- every attempt fails, or there is a first one that does not
      rcases forall_or_first (fun j => (outcomeAt cfg x r pool j).failure ≠ none)
        cfg.settings.upstreamMaxAttempts with hall | ⟨i, hi, hnone, hbefore⟩
      · obtain ⟨⟨status, code⟩, hcode⟩ := Option.ne_none_iff_exists'.mp
          (hall (cfg.settings.upstreamMaxAttempts - 1) (by omega))
        obtain ⟨err, hstatus, herror, hcall⟩ :=
          openBridgeRecorded_of_never hbuild hcaught hpos hall hcode
        obtain ⟨hsends, hcloses, hdistinct, hopened⟩ := @attemptLogs_law cfg x r payload pool
          (cfg.settings.upstreamMaxAttempts - 1) hbuild hcaught _ rfl
        rw [Nat.sub_add_cancel hpos] at hsends hcloses hdistinct hopened
        rw [hcall]
        constructor
        case rejected => simp [hbuild]
        case received =>
          intro payload' i message _ hi _ hreceived
          exact absurd (failure_eq_none_iff.mpr ⟨message, hreceived⟩) (hall i hi)
        case exhausted =>
          intro payload' status' code' _ _ hcode'
          obtain ⟨rfl, rfl⟩ : status = status' ∧ code = code' := by simpa [hcode] using hcode'
          exact ⟨err, rfl, hstatus, herror, by simp⟩
        case sends => exact fun log hlog payload' h => hunique payload' h ▸ hsends log hlog
        case closes => exact hcloses
        case distinct => exact hdistinct
        case opened => exact hopened
      -- one works: the attempts before it are those that failed
      · obtain ⟨message, hreceived⟩ := failure_eq_none_iff.mp (not_not.mp hnone)
        obtain ⟨hsends, hcloses, hdistinct, hopened⟩ :=
          @attemptLogs_law cfg x r payload pool i hbuild hcaught _ rfl
        rw [openBridgeRecorded_of_first hbuild hcaught hi hbefore hreceived]
        constructor
        case rejected => simp [hbuild]
        case received =>
          intro payload' j message' _ hj hbefore' hreceived'
          -- there is only one that is the first
          obtain rfl : i = j := by
            have hfirst' := failure_eq_none_iff.mpr ⟨message', hreceived'⟩
            exact first_unique hnone hbefore (not_not.mpr hfirst') hbefore'
          obtain rfl : message = message' :=
            BridgeOutcome.received.inj (hreceived.symm.trans hreceived')
          refine ⟨(List.range i).map fun j => attemptLog cfg x r payload (takenAt cfg x r pool j),
            attemptLog cfg x r payload (takenAt cfg x r pool i), rfl, ?_, by simp, rfl, ?_⟩
          · rw [List.range_succ, List.map_append]
            rfl
          · exact (useSource_of_received hreceived).2
        case exhausted =>
          exact fun _ _ _ _ hall => absurd (not_not.mp hnone) (hall i hi)
        case sends => exact fun log hlog payload' h => hunique payload' h ▸ hsends log hlog
        case closes => exact hcloses
        case distinct => exact hdistinct
        case opened => exact hopened

/-- The first connection does not open in time, the second one works. -/
def secondOpens : Course where
  usable := fun _ _ => true
  idle := fun _ => ⟨none, .error .timeout⟩
  fresh := fun i =>
    if i = 0 then ⟨some .timeout, none, .error .timeout⟩ else ⟨none, none, .ok sampleCompleted⟩
  context := fun _ => true

theorem webSocketRetryLaw_secondOpens :
    WebSocketRetryLaw sampleConfig secondOpens sampleSecond none
      (openBridgeRecorded sampleConfig secondOpens sampleSecond none) := by
  have hbody : (buildResponseCreateRequest sampleConfig.runtime.depth sampleSecond.body).isOk
      = true := by decide +kernel
  obtain ⟨payload, hpayload⟩ := exists_of_isOk hbody
  refine webSocketRetryLaw sampleConfig secondOpens sampleSecond none (by decide)
    (fun e he => by simp [hpayload] at he) fun i => ?_
  have hfresh : ∀ i, ((secondOpens.fresh i).outcome).Caught := by
    intro i
    rw [secondOpens]
    dsimp only
    split_ifs <;> trivial
  rw [outcomeAt]
  cases (takenAt sampleConfig secondOpens sampleSecond none i).source with
  | reused entry => trivial
  | fresh i => exact hfresh i

/-! ### The call without its logs -/

/-- The course of a call in a scene. -/
def Scene.course (scene : Scene) (context : ℕ → Bool) : Course :=
  ⟨fun _ => scene.usable, scene.idle, scene.fresh, context⟩

lemma useRecorded_fst (u : Usage) : (useRecorded cfg payload u).1 = useConnection cfg u := by
  rw [useRecorded, useConnection]
  cases u.send with
  | some e => rfl
  | none =>
      cases u.recv with
      | ok message => rfl
      | error e =>
          dsimp only
          cases firstMessageError? cfg e <;> rfl

lemma openAttempt_eq_recorded {scene : Scene} {context : ℕ → Bool} (k : ℕ) (s : Sockets)
    (logs : List AttemptLog) :
    openAttempt cfg scene r pooled k s
      = ((recorded (attemptBridge cfg (scene.course context) r pooled) k (s, logs)).1.map Prod.snd,
          (recorded (attemptBridge cfg (scene.course context) r pooled) k (s, logs)).2.1) := by
  have hmap : ∀ (a : BridgeAttempt) (source : Source),
      (a.map fun message => (source, message)).map Prod.snd = a := by
    intro a source
    cases a <;> rfl
  -- without the log, a fresh connection is opened in the same way
  have hfresh : ∀ payload i, (useSource cfg (scene.course context) r payload (.fresh i)).1
      = openFresh cfg (scene.fresh i) := by
    intro payload i
    rw [useSource, openFresh]
    show (match (scene.fresh i).connect with | some e => _ | none => _ : _ × _).1 = _
    cases (scene.fresh i).connect with
    | some e => rfl
    | none => exact useRecorded_fst _
  rw [openAttempt, recorded, attemptBridge]
  cases buildResponseCreateRequest cfg.runtime.depth r.body with
  | error e => cases e <;> rfl
  | ok payload =>
      dsimp only
      rw [hmap, takeSource]
      show _ = ((useSource cfg (scene.course context) r payload
        (takeSource scene.usable (r.key cfg) pooled s).source).1,
        (takeSource scene.usable (r.key cfg) pooled s).left)
      rw [takeSource]
      split_ifs
      · dsimp only
        cases (s.pool.checkout scene.usable (r.key cfg)).selected with
        | none => rw [hfresh]
        | some entry => exact Prod.ext (useRecorded_fst _).symm rfl
      · rw [hfresh]

/-- **The logs make no difference**: the call is `openWebsocketBridgeWithRetries`. -/
theorem openBridgeRecorded_result (cfg : Config) (scene : Scene) (context : ℕ → Bool)
    (r : Request) (pool : Option Pool) :
    openWebsocketBridgeWithRetries cfg scene r pool
      = (openBridgeRecorded cfg (scene.course context) r pool).1.map fun b =>
          ⟨b.attempts, b.firstMessage⟩ := by
  set step := recorded (attemptBridge cfg (scene.course context) r pool.isSome) with hstep
  have hagree : ∀ k (p : Sockets × List AttemptLog) s, s = p.1 →
      (openAttempt cfg scene r pool.isSome k s).1 = (step k p).1.map Prod.snd ∧
        (openAttempt cfg scene r pool.isSome k s).2 = (step k p).2.1 := by
    rintro k p _ rfl
    rw [openAttempt_eq_recorded k p.1 p.2]
    exact ⟨rfl, rfl⟩
  obtain ⟨hresult, -⟩ := run_simulates hagree cfg.settings.upstreamMaxAttempts 1
    (⟨pool.getD .empty, 0⟩, []) ⟨pool.getD .empty, 0⟩ (firstMessageTimeout cfg) rfl
  rw [openWebsocketBridgeWithRetries, openBridgeRecorded, hresult, ← hstep]
  cases hrun : run step cfg.settings.upstreamMaxAttempts 1 (⟨pool.getD .empty, 0⟩, [])
      (firstMessageTimeout cfg) with
  | mk outcome p => cases outcome <;> rfl

end CodexResetProxy
