import CodexResetProxy.Bridge.System

/-!
The bridge as parties that hold connections: what each task holds of the
connections (`Task.view`), and the discipline that the connections obey.

A token of a connection says under which key it was opened and in which phase of
the protocol it is. What a task does is a trade of the tokens it holds and those
of the pool (`taskMove_trade`), and so a single invariant serves all claims
about who holds a connection and what was done on it.

Two parameters stand for conditions on a run. `strict`: a request is only
written on a connection without unread messages. `spare`: the connections that
may be abandoned, by whether they were in the pool or are on their way back to
it.
-/

namespace CodexResetProxy

open Custody Protocol

variable (cfg : Config)

/-- The key a connection was opened under. -/
def Conn.key (x : Conn) : WebSocketPoolKey := websocketPoolKey cfg x.url x.headers

/-- What a holder knows of a connection. -/
structure Token where
  key : WebSocketPoolKey
  phase : Phase

/-- A token tells the truth. -/
def Token.Holds (tok : Token) (x : Conn) : Prop :=
  x.key cfg = tok.key ∧ Run cfg tok.key x.log tok.phase

/-- A stage of the way back to the pool. -/
def Stage.releasing : Stage → Bool
  | .completed _ => true
  | .acking _ => true
  | .acked => true
  | .probing => true
  | .drained => true
  | _ => false

/-- The connection was in the pool or is on its way back to it. -/
def Phase.shared : Phase → Bool
  | .live reused stage => reused || stage.releasing
  | .gone => true

/-- What the proxy does on a connection: one event of the protocol, which takes a
message or takes none. -/
inductive CellStep (strict : Prop) : Conn → Conn → Prop
  | opened {r : Request} : CellStep strict .blank r.connect
  | did {x : Conn} {e : Event} {p : Phase} (hrun : Run cfg (x.key cfg) (x.log ++ [e]) p)
      (htakes : e.takes? = none)
      (hstrict : strict → ∀ r, e = .sent (.create r) → x.unread = []) :
      CellStep strict x (x.did e)
  | took {x : Conn} {e : Event} {a : Arrival} {rest : List Arrival} {p : Phase}
      (hrun : Run cfg (x.key cfg) (x.log ++ [e]) p) (htakes : e.takes? = some a)
      (hunread : x.unread = a :: rest) : CellStep strict x { x.did e with unread := rest }

/-- What happens to a connection from outside. -/
inductive Drift : Conn → Conn → Prop
  | arrive (x : Conn) (message : Message) : Drift x (x.arrive message)
  | setSocket (x : Conn) (socket : Socket) : Drift x { x with socket := socket }

/-- The rules that connections obey. -/
def discipline (strict : Prop) (spare : Bool → Prop) : Discipline Conn Token where
  blank := .blank
  move := CellStep cfg strict
  drift := Drift
  sat := Token.Holds cfg
  disposable := fun tok => tok.phase = .gone ∨ spare tok.phase.shared
  stable := by
    intro tok x y h
    cases h <;> exact Iff.rfl

/-! ### Who holds what -/

/-- The token of an idle entry. -/
def Idle.token (entry : Idle) : ℕ × Token := (entry.conn, ⟨entry.key, .live true .ready⟩)

/-- The token of the connection of a request. -/
def Opened.token (r : Request) (o : Opened) (stage : Stage) : ℕ × Token :=
  (o.conn, ⟨r.key cfg, .live o.reused stage⟩)

/-- What a request holds. -/
def RequestPc.view (r : Request) : RequestPc → List (ℕ × Token)
  | .checkingOut _ selected stale =>
      (selected.toList.map fun entry => (entry.conn, ⟨r.key cfg, .live true .ready⟩)) ++
        stale.map Idle.token
  | .sending o false => [o.token cfg r (.creating r)]
  | .sending o true => [o.token cfg r (.created r)]
  | .awaitingFirst o => [o.token cfg r (.receiving r)]
  | .head o a => [o.token cfg r (.received r a)]
  | .suspended o a => [o.token cfg r (.yielded r a)]
  | .receiving o => [o.token cfg r (.receiving r)]
  | _ => []

/-- What a background task holds. -/
def BackgroundPc.view (r : Request) (o : Opened) : BackgroundPc → List (ℕ × Token)
  | .scheduled id => [o.token cfg r (.completed id)]
  | .acknowledging id false => [o.token cfg r (.acking id)]
  | .acknowledging _ true => [o.token cfg r .acked]
  | .probing => [o.token cfg r .probing]
  | .evicting stale => stale.map Idle.token
  | _ => []

/-- What a closer holds. -/
def CloserPc.view : CloserPc → List (ℕ × Token)
  | .closing rest => rest.map Idle.token
  | .finished => []

/-- What a task holds. -/
def Task.view : Task → List (ℕ × Token)
  | .request r pc => pc.view cfg r
  | .background r o pc => pc.view cfg r o
  | .closer pc => pc.view

/-- The tokens of the pool. -/
def Pool.view (pool : Pool) : List (ℕ × Token) := pool.entries.map Idle.token

/-! ### What is abandoned -/

/-- The connections that a request abandons in a step: it is ended by an
exception that no clause catches, or while no clause is there to close them. Each
comes with whether it was in the pool. -/
def RequestPc.abandons : RequestPc → Outcome → List (ℕ × Bool)
  | .checkingOut _ selected stale, .cancelled =>
      (selected.toList ++ stale).map fun entry => (entry.conn, true)
  | .sending o _, .cancelled => [(o.conn, o.reused)]
  | .awaitingFirst o, .raised e =>
      if firstMessageError? cfg e = none then [(o.conn, o.reused)] else []
  | .awaitingFirst o, .cancelled => [(o.conn, o.reused)]
  | .head o _, .raised _ => [(o.conn, o.reused)]
  | .head o _, .cancelled => [(o.conn, o.reused)]
  | _, _ => []

/-- The connections that a background task abandons in a step: it is cancelled,
or the message that the probe returned cannot be logged. -/
def BackgroundPc.abandons (w : World) (o : Opened) : BackgroundPc → Outcome → List (ℕ × Bool)
  | .scheduled _, .cancelled => [(o.conn, true)]
  | .acknowledging _ _, .cancelled => [(o.conn, true)]
  | .probing, .returned =>
      match (w.conns.cell o.conn).unread.head? with
      | some a =>
          match websocketMessageToText a.message >>= eventType cfg.runtime.depth with
          | .ok _ => []
          | .error _ => [(o.conn, true)]
      | none => []
  | .probing, .cancelled => [(o.conn, true)]
  | .evicting stale, .cancelled => stale.map fun entry => (entry.conn, true)
  | _, _ => []

/-- The connections that a closer abandons in a step. -/
def CloserPc.abandons : CloserPc → Outcome → List (ℕ × Bool)
  | .closing rest, .cancelled => rest.map fun entry => (entry.conn, true)
  | _, _ => []

/-- The connections that a task abandons in a step. -/
def Task.abandons (w : World) : Task → Outcome → List (ℕ × Bool)
  | .request _ pc, outcome => pc.abandons cfg outcome
  | .background _ o pc, outcome => pc.abandons cfg w o outcome
  | .closer pc, outcome => pc.abandons outcome

/-- The step does not write a request on a connection with unread messages. -/
def Task.writesClean (w : World) : Task → Outcome → Bool
  | .request _ (.sending o false), .wrote => (w.conns.cell o.conn).unread.isEmpty
  | _, _ => true

end CodexResetProxy
