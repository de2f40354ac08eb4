import CodexResetProxy.Library.Session
import CodexResetProxy.Mitm.Socks
import CodexResetProxy.Mitm.Tunnel
import CodexResetProxy.Outbound

/-!
A connection of a SOCKS5 client, from its first byte to its end
(`_handle_socks_client`, with `_socks5_handshake`, `_should_mitm`,
`open_outbound_stream`, `open_socks5_socket` and `_handle_tunnel`).

* `Phase`: the `await` the coroutine is suspended in. The two handshakes are programs
  that read from the buffer of the client and from the socket of the proxy.
* `State`: the phase, the address that was connected to, and the two directions between
  client and upstream, which are those of a tunnel.
* `socksClient`: the system. Bytes come in pieces and at any time, also while the other
  side is still being connected to, and every `await` may raise; `step_move`: what a step
  can do.
-/

namespace CodexResetProxy

open PyStr ByteStr Duplex Transition

namespace SocksMitm

open Tunnel (Direction Flow Move)

/-- `_should_mitm`. -/
def shouldMitm (cfg : Config) (target : SocksTarget) : Bool :=
  cfg.settings.listenProtocol = .socks5Mitm ∧ target.port = 443 ∧
    cfg.runtime.lower target.host = cfg.runtime.lower cfg.settings.interceptHost

/-- Where `_handle_socks_client` is suspended.

* `shaking`: in `_socks5_handshake` with the client;
* `dialling`: in `open_connection` or `create_connection`;
* `asking`: in `_socks5_handshake` with the proxy, in its thread;
* `attaching`: in `open_connection` for the socket of the proxy;
* `piping`: in the `gather` of `_handle_tunnel`;
* `intercepting`: in `_handle_mitm_connection`. -/
inductive Phase where
  | shaking (p : Server (Option SocksTarget))
  | dialling (target : SocksTarget)
  | asking (target : SocksTarget) (p : Outbound.Client Unit)
  | attaching (target : SocksTarget)
  | piping (target : SocksTarget)
  | intercepting (target : SocksTarget)

/-- The target, once it is known. -/
def Phase.target? : Phase → Option SocksTarget
  | .shaking _ => none
  | .dialling target => some target
  | .asking target _ => some target
  | .attaching target => some target
  | .piping target => some target
  | .intercepting target => some target

/-- The upstream is connected. -/
def Phase.connected : Phase → Bool
  | .asking _ _ => true
  | .attaching _ => true
  | .piping _ => true
  | _ => false

/-- The two loops of the tunnel run. -/
def Phase.tunnels : Phase → Bool
  | .piping _ => true
  | _ => false

/-- The bytes of the client are left to the TLS handshake. -/
def Phase.intercepts : Phase → Bool
  | .intercepting _ => true
  | _ => false

/-- A connection. `ended`: the coroutine has returned. -/
structure State where
  phase : Phase
  ended : Bool := false
  dialled : Option (PyStr × ℕ) := none
  flows : Direction → Flow := fun _ => {}

/-- What can happen.

* `flow`, `stop`: to the streams;
* `act`: a handshake goes on, and reads at most `n` bytes;
* `endOfStream`: the read of a handshake finds the end of its stream;
* `proceed`: a handshake has returned or raised;
* `connected`, `attached`, `gathered`: the `await` of a later phase returns;
* `raised`: an `await` raises. -/
inductive Event where
  | flow (d : Direction) (m : Move)
  | stop (d : Direction)
  | act (n : ℕ)
  | endOfStream
  | proceed
  | connected
  | attached
  | gathered
  | raised

/-- The moves of the streams: who may send, who reads what, and who copies. -/
def State.allows (s : State) : Direction → Move → Bool
  | .toUpstream, .send _ => true
  | .toUpstream, .halfClose => true
  | .toUpstream, .arrive _ => !s.ended && !s.phase.intercepts
  | .toUpstream, .arriveEof => !s.ended && !s.phase.intercepts
  | .toUpstream, .flush _ => s.phase.connected
  | .toClient, .flush _ => true
  | .toClient, .send _ => !s.ended && s.phase.connected
  | .toClient, .halfClose => !s.ended && s.phase.connected
  | _, _ => !s.ended && s.phase.tunnels

variable (cfg : Config) (idna : Idna.Tables) (unquote : PyStr → PyStr)

/-- The streams, when a program that reads the stream of `d` has left `wire` and `buffer`
of it, and has sent `out` the other way. -/
def spoke (flows : Direction → Flow) (d : Direction) (buffer wire out : Bytes) :
    Direction → Flow :=
  Function.update
    (Function.update flows d { flows d with buffer := buffer, wire := wire }) d.reverse
    { flows d.reverse with outgoing := (flows d.reverse).outgoing ++ out }

/-- A handshake goes on. -/
def State.act (s : State) (n : ℕ) : Option State :=
  match s.phase with
  | .shaking p =>
      (p.act? n (s.flows .toUpstream).buffer).map fun x =>
        { s with phase := .shaking x.1,
                 flows := spoke s.flows .toUpstream x.2.1 (s.flows .toUpstream).wire x.2.2 }
  | .asking target p =>
      (p.act? n (s.flows .toClient).wire).map fun x =>
        { s with phase := .asking target x.1,
                 flows := spoke s.flows .toClient (s.flows .toClient).buffer x.2.1 x.2.2 }
  | _ => none

/-- A handshake finds the end of its stream. -/
def State.endOfStream (s : State) : Option State :=
  match s.phase with
  | .shaking p =>
      if (s.flows .toUpstream).fed ∧ (s.flows .toUpstream).buffer = [] then
        p.atEnd?.map fun q => { s with phase := .shaking q }
      else none
  | .asking target p =>
      if (s.flows .toClient).eof ∧ (s.flows .toClient).wire = [] then
        p.atEnd?.map fun q => { s with phase := .asking target q }
      else none
  | _ => none

/-- What `_handle_socks_client` does with a target: it intercepts the connection, or
opens one to the upstream. -/
def State.serve (s : State) (target : SocksTarget) : State :=
  if shouldMitm cfg target then { s with phase := .intercepting target }
  else
    match Outbound.dialAddress cfg target.host target.port with
    | .ok address => { s with phase := .dialling target, dialled := some address }
    | .error _ => { s with phase := .dialling target, ended := true }

/-- What follows a handshake. -/
def State.proceed (s : State) : Option State :=
  match s.phase with
  | .shaking (.done (some target)) => some (s.serve cfg target)
  | .shaking (.done none) => some { s with ended := true }
  | .shaking (.raised _) => some { s with ended := true }
  | .asking target (.done ()) => some { s with phase := .attaching target }
  | .asking _ (.raised _) => some { s with ended := true }
  | _ => none

/-- What follows a connection. -/
def State.connect (s : State) : Option State :=
  match s.phase with
  | .dialling target =>
      match Outbound.proxy? cfg with
      | none => some { s with phase := .piping target }
      | some proxyUrl => some { s with
          phase := .asking target (Outbound.socks5Handshake cfg.runtime idna unquote proxyUrl
            target.host target.port) }
  | _ => none

/-- One step, with `none` for one that cannot happen. -/
def step (s : State) : Event → Option State
  | .flow d m =>
      if s.allows d m then
        ((s.flows d).move m).map fun f => { s with flows := Function.update s.flows d f }
      else none
  | .stop d =>
      if !s.ended && s.phase.tunnels then
        (Tunnel.step s.flows (.stop d)).map fun flows => { s with flows := flows }
      else none
  | .act n => if s.ended then none else s.act n
  | .endOfStream => if s.ended then none else s.endOfStream
  | .proceed => if s.ended then none else s.proceed cfg
  | .connected => if s.ended then none else s.connect cfg idna unquote
  | .attached =>
      if s.ended then none
      else
        match s.phase with
        | .attaching target => some { s with phase := .piping target }
        | _ => none
  | .gathered =>
      if s.ended then none
      else
        match s.phase with
        | .piping _ =>
            if (s.flows .toUpstream).closed ∧ (s.flows .toClient).closed then
              some { s with ended := true }
            else none
        | _ => none
  | .raised => if s.ended then none else some { s with ended := true }

/-- What a step of a connection can do. -/
inductive SocksMove (s : State) : Event → State → Prop
  | flow {d : Direction} {m : Move} {f : Flow} (hallow : s.allows d m = true)
      (hmove : (s.flows d).move m = some f) :
      SocksMove s (.flow d m) { s with flows := Function.update s.flows d f }
  | stop {d : Direction} {flows : Direction → Flow} (hended : s.ended = false)
      (htunnels : s.phase.tunnels = true) (hstop : Tunnel.step s.flows (.stop d) = some flows) :
      SocksMove s (.stop d) { s with flows := flows }
  | act {n : ℕ} {t : State} (hended : s.ended = false) (hact : s.act n = some t) :
      SocksMove s (.act n) t
  | endOfStream {t : State} (hended : s.ended = false) (hend : s.endOfStream = some t) :
      SocksMove s .endOfStream t
  | proceed {t : State} (hended : s.ended = false) (hproceed : s.proceed cfg = some t) :
      SocksMove s .proceed t
  | connected {t : State} (hended : s.ended = false)
      (hconnect : s.connect cfg idna unquote = some t) : SocksMove s .connected t
  | attached {target : SocksTarget} (hended : s.ended = false)
      (hphase : s.phase = .attaching target) :
      SocksMove s .attached { s with phase := .piping target }
  | gathered {target : SocksTarget} (hended : s.ended = false)
      (hphase : s.phase = .piping target)
      (hclosed : (s.flows .toUpstream).closed = true ∧ (s.flows .toClient).closed = true) :
      SocksMove s .gathered { s with ended := true }
  | raised (hended : s.ended = false) : SocksMove s .raised { s with ended := true }

/-- A step that is only for a connection that has not ended. -/
lemma of_not_ended {s : State} {next : Option State} {t : State}
    (h : (if s.ended then none else next) = some t) : s.ended = false ∧ next = some t := by
  obtain ⟨hended, hnext⟩ := Option.ite_none_left_eq_some.mp h
  exact ⟨Bool.eq_false_iff.mpr hended, hnext⟩

variable {cfg idna unquote} in
/-- **A step of a connection** does one of its moves. -/
theorem step_move {s t : State} {e : Event} (hstep : step cfg idna unquote s e = some t) :
    SocksMove cfg idna unquote s e t := by
  cases e with
  | flow d m =>
      obtain ⟨hallow, hstep⟩ := Option.ite_none_right_eq_some.mp hstep
      obtain ⟨f, hf, rfl⟩ := Option.map_eq_some_iff.mp hstep
      exact .flow hallow hf
  | stop d =>
      obtain ⟨hphase, hstep⟩ := Option.ite_none_right_eq_some.mp hstep
      obtain ⟨flows, hflows, rfl⟩ := Option.map_eq_some_iff.mp hstep
      obtain ⟨hended, htunnels⟩ : s.ended = false ∧ s.phase.tunnels = true := by simpa using hphase
      exact .stop hended htunnels hflows
  | act n =>
      obtain ⟨hended, hact⟩ := of_not_ended hstep
      exact .act hended hact
  | endOfStream =>
      obtain ⟨hended, hend⟩ := of_not_ended hstep
      exact .endOfStream hended hend
  | proceed =>
      obtain ⟨hended, hproceed⟩ := of_not_ended hstep
      exact .proceed hended hproceed
  | connected =>
      obtain ⟨hended, hconnect⟩ := of_not_ended hstep
      exact .connected hended hconnect
  | attached =>
      obtain ⟨hended, hattach⟩ := of_not_ended hstep
      split at hattach
      · rename_i target hphase
        obtain rfl := Option.some.inj hattach
        exact .attached hended hphase
      · cases hattach
  | gathered =>
      obtain ⟨hended, hgather⟩ := of_not_ended hstep
      split at hgather
      · rename_i target hphase
        obtain ⟨hclosed, hgather⟩ := Option.ite_none_right_eq_some.mp hgather
        obtain rfl := Option.some.inj hgather
        exact .gathered hended hphase hclosed
      · cases hgather
  | raised =>
      obtain ⟨hended, hraise⟩ := of_not_ended hstep
      obtain rfl := Option.some.inj hraise
      exact .raised hended

/-- A connection of a client. -/
def socksClient : System State Event where
  init := { phase := .shaking (socks5Handshake idna) }
  step := step cfg idna unquote

end SocksMitm

end CodexResetProxy
