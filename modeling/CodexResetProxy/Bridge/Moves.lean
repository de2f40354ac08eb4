import CodexResetProxy.Bridge.System

/-!
What one step of a task can do, said once.

`RequestMove`, `BackgroundMove` and `CloserMove` have a case for each `await` and
each way to leave it, with what must hold for it and the state it leads to;
`TaskMove` and `BridgeMove` put them together. `requestStep_move`,
`backgroundStep_move`, `taskStep_move` and `bridgeStep_move` say that a step does one
of these, so that no property of steps has to look into the step functions again.
-/

namespace CodexResetProxy

/-- What an `await` comes to whose exceptions are suppressed. -/
inductive Quiet : Outcome → Prop
  | returned : Quiet .returned
  | raised (e : Exc) : Quiet (.raised e)

/-- What an `await` comes to that ends a generator: its `finally` runs, and then
this is raised. -/
inductive Breaks : Outcome → Raised → Prop
  | raised (e : Exc) : Breaks (.raised e) (.exc e)
  | cancelled : Breaks .cancelled .cancelled

/-- The places where a cancellation ends a request at once. In a `recv` the
cancellation only comes while there is no message. -/
inductive RequestPc.Cancellable (w : World) : RequestPc → Prop
  | checkingOut {attempt : ℕ} {selected : Option Idle} {stale : List Idle} :
      Cancellable w (.checkingOut attempt selected stale)
  | connecting {attempt : ℕ} : Cancellable w (.connecting attempt)
  | connectFailed {attempt : ℕ} {e : BridgeError} : Cancellable w (.connectFailed attempt e)
  | sending {o : Opened} {written : Bool} : Cancellable w (.sending o written)
  | awaitingFirst {o : Opened} (h : (w.conns.cell o.conn).waits = true) :
      Cancellable w (.awaitingFirst o)
  | closingAttempt {attempt : ℕ} {e : BridgeError} : Cancellable w (.closingAttempt attempt e)
  | backingOff {attempt : ℕ} : Cancellable w (.backingOff attempt)
  | head {o : Opened} {a : Arrival} : Cancellable w (.head o a)
  | closing {raised : Raised} : Cancellable w (.closing raised)

/-- The places where a cancellation ends a background task at once. -/
inductive BackgroundPc.Cancellable (w : World) (o : Opened) : BackgroundPc → Prop
  | scheduled {id : PyStr} : Cancellable w o (.scheduled id)
  | acknowledging {id : PyStr} {written : Bool} : Cancellable w o (.acknowledging id written)
  | probing (h : (w.conns.cell o.conn).waits = true) : Cancellable w o .probing
  | evicting {stale : List Idle} : Cancellable w o (.evicting stale)
  | closing : Cancellable w o .closing

variable (cfg : Config)

/-- What a step of a request can do. -/
inductive RequestMove (w : World) (r : Request) :
    RequestPc → Outcome → World × RequestPc → List Task → Prop
  | staleClosed {attempt : ℕ} {selected : Option Idle} {stale : List Idle} {outcome : Outcome}
      (h : Quiet outcome) :
      RequestMove w r (.checkingOut attempt selected stale) outcome
        (closeStale w r attempt selected stale) []
  | connected {attempt : ℕ} :
      RequestMove w r (.connecting attempt) .returned
        (sendCreate { w with conns := w.conns.push r.connect } r ⟨w.conns.next, attempt, false⟩) []
  | refused {attempt : ℕ} {e : Exc} :
      RequestMove w r (.connecting attempt) (.raised e)
        (w, .connectFailed attempt (openError e)) []
  | contextClosed {attempt : ℕ} {e : BridgeError} {outcome : Outcome} (h : Quiet outcome) :
      RequestMove w r (.connectFailed attempt e) outcome (attemptFailed cfg w r attempt e) []
  | wrote {o : Opened} :
      RequestMove w r (.sending o false) .wrote
        (w.did o.conn (.sent (.create r)), .sending o true) []
  | sent {o : Opened} :
      RequestMove w r (.sending o true) .returned (w.did o.conn .recv, .awaitingFirst o) []
  | sendFailed {o : Opened} {written : Bool} {e : Exc} :
      RequestMove w r (.sending o written) (.raised e)
        (w.exit o.conn, .closingAttempt o.attempts (openError e)) []
  | first {o : Opened} {a : Arrival} {rest : List Arrival}
      (h : (w.conns.cell o.conn).unread = a :: rest) :
      RequestMove w r (.awaitingFirst o) .returned
        (w.take o.conn (.received r a) rest, .head o a) []
  | firstFailed {o : Opened} {e : Exc} {err : BridgeError}
      (h : (w.conns.cell o.conn).waits = true) (herr : firstMessageError? cfg e = some err) :
      RequestMove w r (.awaitingFirst o) (.raised e)
        (w.exit o.conn, .closingAttempt o.attempts err) []
  | firstUncaught {o : Opened} {e : Exc} (h : (w.conns.cell o.conn).waits = true)
      (herr : firstMessageError? cfg e = none) :
      RequestMove w r (.awaitingFirst o) (.raised e) (w, .finished (some (.exc e))) []
  | attemptClosed {attempt : ℕ} {e : BridgeError} {outcome : Outcome} (h : Quiet outcome) :
      RequestMove w r (.closingAttempt attempt e) outcome (attemptFailed cfg w r attempt e) []
  | backedOff {attempt : ℕ} :
      RequestMove w r (.backingOff attempt) .returned (startAttempt cfg w r (attempt + 1)) []
  | headSent {o : Opened} {a : Arrival} :
      RequestMove w r (.head o a) .returned (forwardMessage cfg w r o a) []
  | headFailed {o : Opened} {a : Arrival} {e : Exc} :
      RequestMove w r (.head o a) (.raised e) (w, .finished (some (.exc e))) []
  | resumed {o : Opened} {a : Arrival} :
      RequestMove w r (.suspended o a) .returned
        ((resume cfg w r o a).1, (resume cfg w r o a).2.1) (resume cfg w r o a).2.2
  | yieldBroken {o : Opened} {a : Arrival} {outcome : Outcome} {raised : Raised}
      (h : Breaks outcome raised) :
      RequestMove w r (.suspended o a) outcome (w.exit o.conn, .closing raised) []
  | next {o : Opened} {a : Arrival} {rest : List Arrival}
      (h : (w.conns.cell o.conn).unread = a :: rest) :
      RequestMove w r (.receiving o) .returned
        (forwardMessage cfg (w.take o.conn (.received r a) rest) r o a) []
  | recvBroken {o : Opened} {outcome : Outcome} {raised : Raised}
      (hwaits : (w.conns.cell o.conn).waits = true) (h : Breaks outcome raised) :
      RequestMove w r (.receiving o) outcome (w.exit o.conn, .closing raised) []
  | closed {raised : Raised} {outcome : Outcome} (h : Quiet outcome) :
      RequestMove w r (.closing raised) outcome (w, .finished (some raised)) []
  | cancelled {pc : RequestPc} (h : pc.Cancellable w) :
      RequestMove w r pc .cancelled (w, .finished (some .cancelled)) []

/-- What a step of a background task can do. -/
inductive BackgroundMove (w : World) (r : Request) (o : Opened) :
    BackgroundPc → Outcome → World × BackgroundPc → Prop
  | started {id : PyStr} (h : cfg.settings.websocketSendResponseProcessed = true) :
      BackgroundMove w r o (.scheduled id) .returned
        (w.did o.conn (.send (.processed id)), .acknowledging id false)
  | unacknowledged {id : PyStr} (h : cfg.settings.websocketSendResponseProcessed = false) :
      BackgroundMove w r o (.scheduled id) .returned (releaseOrClose cfg w o)
  | wrote {id : PyStr} :
      BackgroundMove w r o (.acknowledging id false) .wrote
        (w.did o.conn (.sent (.processed id)), .acknowledging id true)
  | acknowledged {id : PyStr} :
      BackgroundMove w r o (.acknowledging id true) .returned (releaseOrClose cfg w o)
  | sendFailed {id : PyStr} {written : Bool} {e : Exc} :
      BackgroundMove w r o (.acknowledging id written) (.raised e) (w.exit o.conn, .closing)
  | pending {a : Arrival} {rest : List Arrival} (h : (w.conns.cell o.conn).unread = a :: rest) :
      BackgroundMove w r o .probing .returned
        (discardPending cfg (w.take o.conn (.drained a) rest) o a)
  | silent (h : (w.conns.cell o.conn).waits = true) :
      BackgroundMove w r o .probing (.raised .timeout) (putBack cfg w r o)
  | probeFailed {e : Exc} (h : (w.conns.cell o.conn).waits = true) (he : e ≠ .timeout) :
      BackgroundMove w r o .probing (.raised e) (w.exit o.conn, .closing)
  | evicted {stale : List Idle} {outcome : Outcome} (h : Quiet outcome) :
      BackgroundMove w r o (.evicting stale) outcome (closeEvicted w stale)
  | closed {outcome : Outcome} (h : Quiet outcome) :
      BackgroundMove w r o .closing outcome (w, .finished)
  | cancelled {pc : BackgroundPc} (h : pc.Cancellable w o) :
      BackgroundMove w r o pc .cancelled (w, .finished)

/-- What a step of `aclose` can do. -/
inductive CloserMove (w : World) : CloserPc → Outcome → World × CloserPc → Prop
  | closed {rest : List Idle} {outcome : Outcome} (h : Quiet outcome) :
      CloserMove w (.closing rest) outcome (closeIdle w rest)
  | cancelled {rest : List Idle} : CloserMove w (.closing rest) .cancelled (w, .finished)

/-- What a step of a task can do. -/
inductive TaskMove (w : World) : Task → Outcome → World × Task → List Task → Prop
  | request {r : Request} {pc : RequestPc} {outcome : Outcome} {p : World × RequestPc}
      {new : List Task} (h : RequestMove cfg w r pc outcome p new) :
      TaskMove w (.request r pc) outcome (p.1, .request r p.2) new
  | background {r : Request} {o : Opened} {pc : BackgroundPc} {outcome : Outcome}
      {p : World × BackgroundPc} (h : BackgroundMove cfg w r o pc outcome p) :
      TaskMove w (.background r o pc) outcome (p.1, .background r o p.2) []
  | closer {pc : CloserPc} {outcome : Outcome} {p : World × CloserPc}
      (h : CloserMove w pc outcome p) : TaskMove w (.closer pc) outcome (p.1, .closer p.2) []

/-- What a step of the bridge can do. -/
inductive BridgeMove (s : State) : Action → State → Prop
  | arrive {c : ℕ} {message : Message} (h : c < s.world.conns.next) :
      BridgeMove s (.arrive c message) { s with world := { s.world with
        conns := s.world.conns.set c ((s.world.conns.cell c).arrive message) } }
  | setSocket {c : ℕ} {socket : Socket} (h : c < s.world.conns.next) :
      BridgeMove s (.setSocket c socket) { s with world := { s.world with
        conns := s.world.conns.set c { s.world.conns.cell c with socket := socket } } }
  | tick {seconds : ℚ} (h : 0 < seconds) :
      BridgeMove s (.tick seconds)
        { s with world := { s.world with now := s.world.now + seconds } }
  | request {url : PyStr} {rawHeaders : List (List UInt8 × List UInt8)} {body : ByteArray}
      {r : Request} (hr : r = ⟨s.tasks.length, url, rawHeaders, body⟩) :
      BridgeMove s (.request url rawHeaders body)
        ⟨(startRequest cfg s.world r).1, s.tasks ++ [.request r (startRequest cfg s.world r).2]⟩
  | aclose :
      BridgeMove s .aclose
        ⟨(startClose s.world).1, s.tasks ++ [.closer (startClose s.world).2]⟩
  | run {i : ℕ} {outcome : Outcome} {task task' : Task} {w' : World} {new : List Task}
      (hi : s.tasks[i]? = some task) (h : TaskMove cfg s.world task outcome (w', task') new) :
      BridgeMove s (.run i outcome) ⟨w', s.tasks.set i task' ++ new⟩

variable {cfg} {w w' : World} {r : Request} {o : Opened} {outcome : Outcome}

/-- **A step of a request** does one of its moves. -/
theorem requestStep_move {pc pc' : RequestPc} {new : List Task}
    (h : requestStep cfg w r pc outcome = some (w', pc', new)) :
    RequestMove cfg w r pc outcome (w', pc') new := by
  cases pc with
  | checkingOut attempt selected stale =>
      -- `await` of a stale connection: any ending but a cancellation goes on
      cases outcome with
      | returned => cases h; exact .staleClosed .returned
      | raised e => cases h; exact .staleClosed (.raised e)
      | cancelled => cases h; exact .cancelled .checkingOut
      | wrote => cases h
  | connecting attempt =>
      cases outcome with
      | returned => cases h; exact .connected
      | raised e => cases h; exact .refused
      | cancelled => cases h; exact .cancelled .connecting
      | wrote => cases h
  | connectFailed attempt e =>
      cases outcome with
      | returned => cases h; exact .contextClosed .returned
      | raised e' => cases h; exact .contextClosed (.raised e')
      | cancelled => cases h; exact .cancelled .connectFailed
      | wrote => cases h
  | sending o written =>
      -- the send may be interrupted before and after the message is written
      cases outcome with
      | returned =>
          cases written with
          | false => cases h
          | true => cases h; exact .sent
      | raised e => cases written <;> cases h <;> exact .sendFailed
      | cancelled => cases written <;> cases h <;> exact .cancelled .sending
      | wrote =>
          cases written with
          | false => cases h; exact .wrote
          | true => cases h
  | awaitingFirst o =>
      -- a message is there, or the wait for one ends without
      cases outcome with
      | returned =>
          simp only [requestStep] at h
          split at h
          · rename_i a rest hunread
            cases h
            exact .first hunread
          · cases h
      | raised e =>
          simp only [requestStep] at h
          split_ifs at h with hwaits
          split at h
          -- an exception that the loop of attempts catches, then one that it does not
          · rename_i err herr
            cases h
            exact .firstFailed hwaits herr
          · rename_i herr
            cases h
            exact .firstUncaught hwaits herr
      | cancelled =>
          simp only [requestStep] at h
          split_ifs at h with hwaits
          cases h
          exact .cancelled (.awaitingFirst hwaits)
      | wrote => cases h
  | closingAttempt attempt e =>
      cases outcome with
      | returned => cases h; exact .attemptClosed .returned
      | raised e' => cases h; exact .attemptClosed (.raised e')
      | cancelled => cases h; exact .cancelled .closingAttempt
      | wrote => cases h
  | backingOff attempt =>
      -- `asyncio.sleep` raises nothing of its own
      cases outcome with
      | returned => cases h; exact .backedOff
      | cancelled => cases h; exact .cancelled .backingOff
      | raised e => cases h
      | wrote => cases h
  | head o a =>
      cases outcome with
      | returned => cases h; exact .headSent
      | raised e => cases h; exact .headFailed
      | cancelled => cases h; exact .cancelled .head
      | wrote => cases h
  | suspended o a =>
      cases outcome with
      | returned =>
          -- the message that was yielded may have been the last one
          have hresume : resume cfg w r o a = (w', pc', new) := Option.some.inj h
          have hmove : RequestMove cfg w r (.suspended o a) .returned _ _ := .resumed
          rwa [hresume] at hmove
      | raised e => cases h; exact .yieldBroken (.raised e)
      | cancelled => cases h; exact .yieldBroken .cancelled
      | wrote => cases h
  | receiving o =>
      -- as with the first message, but any exception leaves the loop
      cases outcome with
      | returned =>
          simp only [requestStep] at h
          split at h
          · rename_i a rest hunread
            cases h
            exact .next hunread
          · cases h
      | raised e =>
          simp only [requestStep] at h
          split_ifs at h with hwaits
          cases h
          exact .recvBroken hwaits (.raised e)
      | cancelled =>
          simp only [requestStep] at h
          split_ifs at h with hwaits
          cases h
          exact .recvBroken hwaits .cancelled
      | wrote => cases h
  | closing raised =>
      cases outcome with
      | returned => cases h; exact .closed .returned
      | raised e => cases h; exact .closed (.raised e)
      | cancelled => cases h; exact .cancelled .closing
      | wrote => cases h
  | finished raised => cases outcome <;> cases h

/-- **A step of a background task** does one of its moves. -/
theorem backgroundStep_move {pc pc' : BackgroundPc}
    (h : backgroundStep cfg w r o pc outcome = some (w', pc')) :
    BackgroundMove cfg w r o pc outcome (w', pc') := by
  cases pc with
  | scheduled id =>
      cases outcome with
      | returned =>
          simp only [backgroundStep] at h
          -- `response.processed` is sent or the connection released at once
          split_ifs at h with hsetting
          · cases h
            exact .started hsetting
          · have hmove : BackgroundMove cfg w r o (.scheduled id) .returned _ :=
              .unacknowledged (Bool.eq_false_iff.mpr hsetting)
            rwa [Option.some.inj h] at hmove
      | cancelled => cases h; exact .cancelled .scheduled
      | raised e => cases h
      | wrote => cases h
  | acknowledging id written =>
      cases outcome with
      | returned =>
          cases written with
          | false => cases h
          | true =>
              have hmove : BackgroundMove cfg w r o (.acknowledging id true) .returned _ :=
                .acknowledged
              rwa [Option.some.inj h] at hmove
      | raised e => cases written <;> cases h <;> exact .sendFailed
      | cancelled => cases written <;> cases h <;> exact .cancelled .acknowledging
      | wrote =>
          cases written with
          | false => cases h; exact .wrote
          | true => cases h
  | probing =>
      cases outcome with
      | returned =>
          simp only [backgroundStep] at h
          split at h
          · rename_i a rest hunread
            have hmove : BackgroundMove cfg w r o .probing .returned _ := .pending hunread
            rwa [Option.some.inj h] at hmove
          · cases h
      | raised e =>
          cases e with
          | timeout =>
              -- no message is pending: the connection may be kept
              simp only [backgroundStep] at h
              split_ifs at h with hwaits
              have hmove : BackgroundMove cfg w r o .probing (.raised .timeout) _ :=
                .silent hwaits
              rwa [Option.some.inj h] at hmove
          | _ =>
              simp only [backgroundStep] at h
              split_ifs at h with hwaits
              cases h
              exact .probeFailed hwaits (by simp)
      | cancelled =>
          simp only [backgroundStep] at h
          split_ifs at h with hwaits
          cases h
          exact .cancelled (.probing hwaits)
      | wrote => cases h
  | evicting stale =>
      -- what the pool gives up is closed, whatever comes of it
      cases outcome with
      | returned => rw [← Option.some.inj h]; exact .evicted .returned
      | raised e => rw [← Option.some.inj h]; exact .evicted (.raised e)
      | cancelled => cases h; exact .cancelled .evicting
      | wrote => cases h
  | closing =>
      cases outcome with
      | returned => cases h; exact .closed .returned
      | raised e => cases h; exact .closed (.raised e)
      | cancelled => cases h; exact .cancelled .closing
      | wrote => cases h
  | finished => cases outcome <;> cases h

/-- **A step of `aclose`** does one of its moves. -/
lemma closerStep_move {pc pc' : CloserPc} (h : closerStep w pc outcome = some (w', pc')) :
    CloserMove w pc outcome (w', pc') := by
  cases pc with
  | finished => cases h
  | closing rest =>
      cases outcome with
      | returned => rw [← Option.some.inj h]; exact .closed .returned
      | raised e => rw [← Option.some.inj h]; exact .closed (.raised e)
      | cancelled => cases h; exact .cancelled
      | wrote => cases h

/-- **A step of a task** does one of its moves. -/
theorem taskStep_move {task task' : Task} {new : List Task}
    (h : taskStep cfg w task outcome = some (w', task', new)) :
    TaskMove cfg w task outcome (w', task') new := by
  cases task with
  | request r pc =>
      obtain ⟨⟨w₁, pc₁, new₁⟩, hstep, he⟩ := Option.map_eq_some_iff.mp h
      cases he
      exact .request (requestStep_move hstep)
  | background r o pc =>
      obtain ⟨⟨w₁, pc₁⟩, hstep, he⟩ := Option.map_eq_some_iff.mp h
      cases he
      exact .background (backgroundStep_move hstep)
  | closer pc =>
      obtain ⟨⟨w₁, pc₁⟩, hstep, he⟩ := Option.map_eq_some_iff.mp h
      cases he
      exact .closer (closerStep_move hstep)

/-- **A step of the bridge** does one of its moves. -/
theorem bridgeStep_move {s s' : State} {a : Action} (h : bridgeStep cfg s a = some s') :
    BridgeMove cfg s a s' := by
  cases a with
  | arrive c message =>
      simp only [bridgeStep] at h
      split_ifs at h with hc
      cases h
      exact .arrive hc
  | setSocket c socket =>
      simp only [bridgeStep] at h
      split_ifs at h with hc
      cases h
      exact .setSocket hc
  | tick seconds =>
      simp only [bridgeStep] at h
      split_ifs at h with hpos
      cases h
      exact .tick hpos
  | request url rawHeaders body => cases h; exact .request rfl
  | aclose => cases h; exact .aclose
  | run i outcome =>
      simp only [bridgeStep] at h
      cases hi : s.tasks[i]? with
      | none => simp [hi] at h
      | some task =>
          simp only [hi] at h
          obtain ⟨⟨w', task', new⟩, hstep, rfl⟩ := Option.map_eq_some_iff.mp h
          exact .run hi (taskStep_move hstep)

end CodexResetProxy
