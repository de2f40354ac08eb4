import CodexResetProxy.Bridge.Moves
import CodexResetProxy.Bridge.PoolCalls

/-!
One call of `release`, with no other call in between: what becomes of the
connection.

* `runRelease`: the call from its beginning to its end, for what the `recv` of its
  probe comes to; `exec_release` ties it to the steps of the pool.
* `Released`: the three ways in which it ends: the connection is closed, it is put
  into the pool, or the call raises and nobody has it.
* `KeepsConnection`: the call returns and the connection is in one place of the
  pool, or else closed; `keepsConnection_iff` says when.
-/

namespace CodexResetProxy

open Transition

namespace WebSocketBridgePool

variable (cfg : Config)

/-- A call at the end of its entries, when what exits a context raises is
suppressed. -/
def Call.finish (call : Call) : Call :=
  match call.pc with
  | .closing result rest => ⟨.returned result, call.exited ++ rest.map Idle.conn⟩
  | _ => call

/-- `release`, with no other call in between. -/
def runRelease (s : State) (conn : ℕ) (key? : Option WebSocketPoolKey) (probe : Probe) :
    State × Call :=
  let (s, call) := startRelease cfg s conn key?
  match call.pc with
  | .probing conn key =>
      let (s, call) := received cfg s conn key probe
      (s, call.finish)
  | _ => (s, call.finish)

/-- A pool that nobody else uses. -/
def alone (pool : Pool) (sockets : ℕ → Socket) (now : ℚ) : State :=
  ⟨pool, false, sockets, now, [], []⟩

/-- The pool keeps connections. -/
def Retains : Prop :=
  0 < cfg.settings.websocketPoolMaxIdle ∧ ¬cfg.settings.websocketPoolIdleTimeoutSeconds ≤ 0

/-- `release` gets as far as its probe. -/
def Probes (s : State) (conn : ℕ) (key? : Option WebSocketPoolKey) : Prop :=
  key? ≠ none ∧ Retains cfg ∧ websocketAppearsOpen cfg.runtime (s.sockets conn) = true

/-- The probe raises an `Exception`, or returns a message that is text or valid
UTF-8 and whose event type `json.loads` does not fail to find, for the depth of the
text or the length of a number in it. -/
def Probe.Settles : Probe → Prop
  | .message m =>
      ∃ text event, websocketMessageToText m = .ok text ∧
        eventType cfg.runtime.depth text = .ok event
  | .raised _ => True
  | .cancelled => False

/-- How a call of `release` ends. -/
inductive Released (s : State) (conn : ℕ) (key? : Option WebSocketPoolKey) (probe : Probe) :
    State × Call → Prop
  | closed (h : Probes cfg s conn key? → probe.Settles cfg) :
      Released s conn key? probe (s, ⟨.returned none, [conn]⟩)
  | pooled {key : WebSocketPoolKey} (hkey : key? = some key) (h : Probes cfg s conn key?)
      (hprobe : probe = .raised .timeout) :
      Released s conn key? probe ((underLock cfg s (.putting ⟨conn, key, s.now⟩)).1,
        ⟨.returned none, ((s.pool.insert cfg.settings.websocketPoolMaxIdle
          ⟨conn, key, s.now⟩).1).map Idle.conn⟩)
  | lost (raised : Raised) (h : Probes cfg s conn key?) (hprobe : ¬probe.Settles cfg) :
      Released s conn key? probe (s, ⟨.raised raised, []⟩)

variable {cfg} {s : State} {conn i : ℕ} {key? : Option WebSocketPoolKey}
  {key : WebSocketPoolKey} {probe : Probe}

lemma finish_closeNext (exited : List ℕ) (result : Option Idle) (rest : List Idle) :
    (closeNext exited result rest).finish
      = ⟨.returned result, exited ++ rest.map Idle.conn⟩ := by
  cases rest with
  | nil => simp [closeNext, Call.finish]
  | cons entry rest => simp [closeNext, Call.finish]

/-- The first `await` of `release` is its probe, or closes the connection. -/
lemma startRelease_eq (cfg : Config) (s : State) (conn : ℕ) (key? : Option WebSocketPoolKey) :
    (∃ key, key? = some key ∧ Probes cfg s conn key? ∧
        startRelease cfg s conn key? = (s, ⟨.probing conn key, []⟩)) ∨
      ¬Probes cfg s conn key? ∧ startRelease cfg s conn key? = (s, closeOpened conn) := by
  cases key? with
  | none => exact Or.inr ⟨fun h => h.1 rfl, rfl⟩
  | some key =>
      rw [startRelease]
      split_ifs with hretained hopen
      · refine Or.inr ⟨fun h => ?_, rfl⟩
        obtain ⟨hmax, htimeout⟩ := h.2.1
        rcases hretained with hzero | hle
        · exact hmax.ne' hzero
        · exact htimeout hle
      · exact Or.inr ⟨fun h => by simp [h.2.2] at hopen, rfl⟩
      · rw [not_or] at hretained
        exact Or.inl ⟨key, rfl, ⟨by simp, ⟨Nat.pos_of_ne_zero hretained.1, hretained.2⟩,
          Bool.eq_true_of_not_eq_false hopen⟩, rfl⟩

/-- What the probe comes to decides how the call ends. -/
lemma received_released (hfree : s.locked = false) (hkey : key? = some key)
    (h : Probes cfg s conn key?) (probe : Probe) :
    Released cfg s conn key? probe ((received cfg s conn key probe).1,
      (received cfg s conn key probe).2.finish) := by
  cases probe with
  | message m =>
      rw [received]
      -- a pending message: it is decoded outside of the `try`
      cases htext : websocketMessageToText m with
      | error e =>
          refine .lost (.exc e.exc) h ?_
          rintro ⟨text, event, hok, -⟩
          simp [htext] at hok
      | ok text =>
          have hbind : (Except.ok text : Except ForwardError PyStr) >>= eventType cfg.runtime.depth
              = eventType cfg.runtime.depth text := rfl
          rw [hbind]
          cases hevent : eventType cfg.runtime.depth text with
          | error e =>
              refine .lost (.exc e.exc) h ?_
              rintro ⟨text', event, hok, hevent'⟩
              obtain rfl : text = text' := by simpa [htext] using hok
              simp [hevent] at hevent'
          | ok event => exact .closed fun _ => ⟨text, event, htext, hevent⟩
  | raised e =>
      cases e with
      | timeout =>
          rw [received, withLock_of_free hfree]
          dsimp only
          rw [finish_closeNext, List.nil_append]
          exact .pooled hkey h rfl
      | _ => exact .closed fun _ => trivial
  | cancelled => exact .lost .cancelled h id

/-- **How `release` ends.** -/
lemma runRelease_released (hfree : s.locked = false) (conn : ℕ)
    (key? : Option WebSocketPoolKey) (probe : Probe) :
    Released cfg s conn key? probe (runRelease cfg s conn key? probe) := by
  rcases startRelease_eq cfg s conn key? with
    ⟨key, hkey, hprobes, hstart⟩ | ⟨hprobes, hstart⟩
  · simp only [runRelease, hstart]
    exact received_released hfree hkey hprobes probe
  · simp only [runRelease, hstart]
    exact .closed fun h => absurd h hprobes

/-! ### The steps of the call -/

/-- A call closes the entries that are left, whatever exiting their contexts comes
to. -/
lemma exec_closing {now : ℚ} {sockets : ℕ → Socket} {result : Option Idle} {rest : List Idle}
    {exited : List ℕ} {outcomes : List Outcome}
    (hcall : s.calls[i]? = some ⟨.closing result rest, exited⟩)
    (hlen : outcomes.length = rest.length + 1) (hquiet : ∀ outcome ∈ outcomes, Quiet outcome) :
    (system cfg now sockets).exec s (outcomes.map (Action.resumed i))
      = some (.update i (s, ⟨.returned result, exited ++ rest.map Idle.conn⟩)) := by
  induction rest generalizing s exited outcomes with
  | nil =>
      obtain ⟨outcome, rfl⟩ := List.length_eq_one_iff.mp hlen
      have hstep : step cfg s (.resumed i outcome)
          = some (.update i (s, ⟨.returned result, exited⟩)) := by
        cases hquiet outcome (List.mem_singleton_self _) <;> simp [step, hcall, resumed, closeNext]
      rw [List.map_singleton, System.exec_cons, system_step, hstep]
      simp
  | cons entry rest ih =>
      obtain ⟨outcome, outcomes, rfl⟩ : ∃ o os, outcomes = o :: os :=
        List.exists_cons_of_length_eq_add_one hlen
      have hlt : i < s.calls.length := (List.getElem?_eq_some_iff.mp hcall).1
      have hstep : step cfg s (.resumed i outcome)
          = some (.update i (s, ⟨.closing result rest, exited ++ [entry.conn]⟩)) := by
        cases hquiet outcome List.mem_cons_self <;> simp [step, hcall, resumed, closeNext]
      have hnext := ih (s := .update i (s, ⟨.closing result rest, exited ++ [entry.conn]⟩))
        (List.getElem?_set_self hlt) (by simpa using hlen)
        fun o ho => hquiet o (List.mem_cons_of_mem _ ho)
      rw [List.map_cons, System.exec_cons, system_step, hstep, Option.bind_some, hnext]
      simp [State.update]

/-- A call that probes no more comes to its end. -/
lemma exec_finish (cfg : Config) (now : ℚ) (sockets : ℕ → Socket) {call : Call}
    (hcall : s.calls[i]? = some call) (hsettled : call.pc.Settled cfg)
    (hprobing : ∀ conn key, call.pc ≠ .probing conn key) :
    ∃ n, ∀ outcomes : List Outcome, outcomes.length = n → (∀ o ∈ outcomes, Quiet o) →
      ∃ t, (system cfg now sockets).exec s (outcomes.map (Action.resumed i)) = some t ∧
        t.pool = s.pool ∧ t.calls[i]? = some call.finish := by
  obtain ⟨pc, exited⟩ := call
  have hlt : i < s.calls.length := (List.getElem?_eq_some_iff.mp hcall).1
  have hended : ∀ call, s.calls[i]? = some call → ∀ outcomes : List Outcome,
      outcomes.length = 0 → ∃ t, (system cfg now sockets).exec s
        (outcomes.map (Action.resumed i)) = some t ∧ t.pool = s.pool ∧
          t.calls[i]? = some call := by
    intro call hcall outcomes hlen
    obtain rfl := List.eq_nil_of_length_eq_zero hlen
    exact ⟨s, rfl, rfl, hcall⟩
  cases pc with
  | probing conn key => exact absurd rfl (hprobing conn key)
  | acquiring guarded => exact absurd hsettled id
  | closing result rest =>
      refine ⟨rest.length + 1, fun outcomes hlen hquiet => ?_⟩
      exact ⟨_, exec_closing hcall hlen hquiet, rfl, List.getElem?_set_self hlt⟩
  | returned result => exact ⟨0, fun outcomes hlen _ => hended _ hcall outcomes hlen⟩
  | raised raised => exact ⟨0, fun outcomes hlen _ => hended _ hcall outcomes hlen⟩

/-- Other calls do not matter to what a probe leads to. -/
lemma received_calls (hfree : s.locked = false) (conn : ℕ) (key : WebSocketPoolKey)
    (probe : Probe) (calls : List Call) :
    received cfg { s with calls := calls } conn key probe
      = ({ (received cfg s conn key probe).1 with calls := calls },
          (received cfg s conn key probe).2) := by
  cases probe with
  | message m =>
      rw [received, received]
      cases websocketMessageToText m >>= eventType cfg.runtime.depth <;> rfl
  | raised e =>
      cases e with
      | timeout =>
          rw [received, received, withLock_of_free hfree,
            withLock_of_free (s := { s with calls := calls }) hfree]
          rfl
      | _ => rfl
  | cancelled => rfl

lemma received_not_probing (hfree : s.locked = false) (conn : ℕ) (key : WebSocketPoolKey)
    (probe : Probe) (conn' : ℕ) (key' : WebSocketPoolKey) :
    (received cfg s conn key probe).2.pc ≠ .probing conn' key' := by
  cases probe with
  | message m =>
      rw [received]
      cases websocketMessageToText m >>= eventType cfg.runtime.depth <;> simp [closeOpened]
  | raised e =>
      cases e with
      | timeout =>
          rw [received, withLock_of_free hfree]
          dsimp only
          generalize (underLock cfg s (.putting ⟨conn, key, s.now⟩)).2.2 = stale
          cases stale <;> simp [closeNext]
      | _ => simp [received, closeOpened]
  | cancelled => simp [received]

/-- **The call in steps**: `release` is called, its probe comes to something, and
each context it exits comes to something that is suppressed. -/
theorem exec_release (cfg : Config) (pool : Pool) (sockets : ℕ → Socket) (now : ℚ) (conn : ℕ)
    (key? : Option WebSocketPoolKey) (probe : Probe) :
    ∃ probes n, (probes = [] ∨ probes = [Action.received 0 probe]) ∧
      ∀ outcomes : List Outcome, outcomes.length = n → (∀ o ∈ outcomes, Quiet o) →
        ∃ t, (system cfg now sockets).exec (alone pool sockets now)
            ((.release conn key? :: probes) ++ outcomes.map (Action.resumed 0)) = some t ∧
          t.pool = (runRelease cfg (alone pool sockets now) conn key? probe).1.pool ∧
          t.calls[0]? = some (runRelease cfg (alone pool sockets now) conn key? probe).2 := by
  set s := alone pool sockets now with hs
  have hfree : s.locked = false := rfl
  have hbegin : ∀ call, startRelease cfg s conn key? = (s, call) →
      (system cfg now sockets).step s (.release conn key?)
        = some { s with calls := [call] } := by
    intro call hstart
    rw [system_step, step, hstart]
    rfl
  rcases startRelease_eq cfg s conn key? with
    ⟨key, hkey, hprobes, hstart⟩ | ⟨hprobes, hstart⟩
  -- the connection is probed, and then put back or closed
  · have hrun : runRelease cfg s conn key? probe
        = ((received cfg s conn key probe).1, (received cfg s conn key probe).2.finish) := by
      simp only [runRelease, hstart]
    have hprobed : (system cfg now sockets).step { s with calls := [⟨.probing conn key, []⟩] }
        (.received 0 probe)
          = some { (received cfg s conn key probe).1 with
              calls := [(received cfg s conn key probe).2] } := by
      rw [system_step]
      simp only [step, List.getElem?_cons_zero]
      rw [received_calls hfree]
      rfl
    -- what is left is to close what the pool gives up
    obtain ⟨n, hfinish⟩ := exec_finish cfg now sockets
      (s := { (received cfg s conn key probe).1 with
        calls := [(received cfg s conn key probe).2] }) (i := 0) rfl
      (received_effect hfree hprobes.2.1.1 conn key probe).settled
      (received_not_probing hfree conn key probe)
    refine ⟨[.received 0 probe], n, Or.inr rfl, fun outcomes hlen hquiet => ?_⟩
    obtain ⟨t, hexec, hpool, hcall⟩ := hfinish outcomes hlen hquiet
    refine ⟨t, ?_, by rw [hpool, hrun], by rw [hcall, hrun]⟩
    rw [List.cons_append, System.exec_cons, hbegin _ hstart, Option.bind_some,
      List.singleton_append, System.exec_cons, hprobed, Option.bind_some, hexec]
  -- it is closed without a probe
  · have hrun : runRelease cfg s conn key? probe = (s, (closeOpened conn).finish) := by
      simp only [runRelease, hstart]
      rfl
    obtain ⟨n, hfinish⟩ := exec_finish cfg now sockets
      (s := { s with calls := [closeOpened conn] }) (i := 0) rfl trivial (by simp [closeOpened])
    refine ⟨[], n, Or.inl rfl, fun outcomes hlen hquiet => ?_⟩
    obtain ⟨t, hexec, hpool, hcall⟩ := hfinish outcomes hlen hquiet
    refine ⟨t, ?_, by rw [hpool, hrun], by rw [hcall, hrun]⟩
    rw [List.cons_append, System.exec_cons, hbegin _ hstart, Option.bind_some,
      List.nil_append, hexec]

/-! ### What becomes of the connection -/

/-- The connections in the pool, once for each of their places. -/
def conns (pool : Pool) : List ℕ := pool.entries.map Idle.conn

/-- `release` has returned, and the connection is in one place of the pool, under
its key, or its context has been exited, and not both; it is in the pool only after
a probe that timed out, on a connection that appeared open, of a pool that keeps
connections. -/
structure KeepsConnection (cfg : Config) (s : State) (conn : ℕ)
    (key? : Option WebSocketPoolKey) (probe : Probe) (p : State × Call) : Prop where
  returned : p.2.pc = .returned none
  kept : (∃ key, key? = some key ∧ ((p.1.pool.bucket key).map Idle.conn).count conn = 1 ∧
      (conns p.1.pool).count conn = 1 ∧ conn ∉ p.2.exited) ∨
    conn ∉ conns p.1.pool ∧ conn ∈ p.2.exited
  pooled : conn ∈ conns p.1.pool →
    probe = .raised .timeout ∧ websocketAppearsOpen cfg.runtime (s.sockets conn) = true ∧
      Retains cfg

lemma count_bucket_le (pool : Pool) (key : WebSocketPoolKey) (conn : ℕ) :
    ((pool.bucket key).map Idle.conn).count conn ≤ (conns pool).count conn := by
  rw [conns, ((Pool.bucket_perm pool key).map Idle.conn).count_eq, List.map_append,
    List.count_append]
  exact Nat.le_add_right _ _

/-- `release` puts one entry more into the pool than it evicts. -/
lemma count_insert (pool : Pool) (maxIdle : ℕ) (idle : Idle) (conn : ℕ) :
    ((pool.insert maxIdle idle).1.map Idle.conn).count conn
        + (conns (pool.insert maxIdle idle).2).count conn
      = (conns pool).count conn + if idle.conn = conn then 1 else 0 := by
  have hcount := ((Pool.insert_perm pool maxIdle idle).map Idle.conn).count_eq conn
  rw [List.map_append, List.count_append, List.map_cons, List.count_cons] at hcount
  rw [conns, conns, ← hcount]
  simp

/-- What is evicted was in the pool. -/
lemma count_evicted_le (pool : Pool) (maxIdle : ℕ) (idle : Idle) (conn : ℕ) :
    ((pool.insert maxIdle idle).1.map Idle.conn).count conn ≤ (conns pool).count conn := by
  rw [Pool.insert_fst]
  exact (((List.take_sublist _ _).map Idle.conn).count_le conn).trans
    (count_bucket_le pool idle.key conn)

/-- The new entry is in its bucket. -/
lemma count_bucket_insert_pos (pool : Pool) (maxIdle : ℕ) (idle : Idle) :
    0 < (((pool.insert maxIdle idle).2.bucket idle.key).map Idle.conn).count idle.conn := by
  rw [Pool.bucket_insert_self, List.count_pos_iff]
  simp

/-- A connection that was not in the pool is in one place after `release`. -/
lemma kept_of_not_mem (pool : Pool) (maxIdle : ℕ) (idle : Idle)
    (h : idle.conn ∉ conns pool) :
    (((pool.insert maxIdle idle).2.bucket idle.key).map Idle.conn).count idle.conn = 1 ∧
      (conns (pool.insert maxIdle idle).2).count idle.conn = 1 ∧
      idle.conn ∉ (pool.insert maxIdle idle).1.map Idle.conn := by
  have hzero := List.count_eq_zero.mpr h
  have hevicted := count_evicted_le pool maxIdle idle idle.conn
  have hinsert := count_insert pool maxIdle idle idle.conn
  have hbucket := count_bucket_le (pool.insert maxIdle idle).2 idle.key idle.conn
  have hpos := count_bucket_insert_pos pool maxIdle idle
  rw [if_pos rfl] at hinsert
  exact ⟨by omega, by omega, List.count_eq_zero.mp (by omega)⟩

/-- A connection that was in the pool is in two places after `release`, or else
also closed. -/
lemma not_mem_of_kept {pool : Pool} {maxIdle : ℕ} {idle : Idle}
    (h : (conns (pool.insert maxIdle idle).2).count idle.conn = 1)
    (hevicted : idle.conn ∉ (pool.insert maxIdle idle).1.map Idle.conn) :
    idle.conn ∉ conns pool := by
  have hinsert := count_insert pool maxIdle idle idle.conn
  rw [List.count_eq_zero.mpr hevicted, if_pos rfl] at hinsert
  exact List.count_eq_zero.mp (by omega)

lemma Released.keepsConnection {p : State × Call} (h : Released cfg s conn key? probe p)
    (hnot : conn ∉ conns s.pool) (hsettles : Probes cfg s conn key? → probe.Settles cfg) :
    KeepsConnection cfg s conn key? probe p := by
  cases h with
  | closed _ =>
      exact ⟨rfl, Or.inr ⟨hnot, List.mem_singleton_self _⟩, fun hmem => absurd hmem hnot⟩
  | @pooled key hkey hprobes hprobe =>
      exact ⟨rfl, Or.inl ⟨key, hkey, kept_of_not_mem s.pool _ ⟨conn, key, s.now⟩ hnot⟩,
        fun _ => ⟨hprobe, hprobes.2.2, hprobes.2.1⟩⟩
  | lost raised hprobes hprobe => exact absurd (hsettles hprobes) hprobe

lemma Released.of_keepsConnection {p : State × Call} (h : Released cfg s conn key? probe p)
    (hkeeps : KeepsConnection cfg s conn key? probe p) :
    conn ∉ conns s.pool ∧ (Probes cfg s conn key? → probe.Settles cfg) := by
  obtain ⟨hreturned, hkept, -⟩ := hkeeps
  cases h with
  | closed h =>
      rcases hkept with ⟨_, _, _, _, hnot⟩ | ⟨hnot, _⟩
      · exact absurd (List.mem_singleton_self conn) hnot
      · exact ⟨hnot, h⟩
  | @pooled key hkey h hprobe =>
      refine ⟨?_, fun _ => hprobe ▸ trivial⟩
      rcases hkept with ⟨_, _, _, honce, hnot⟩ | ⟨hnot, _⟩
      · exact @not_mem_of_kept s.pool _ ⟨conn, key, s.now⟩ honce hnot
      · have hpos := count_bucket_insert_pos s.pool
          cfg.settings.websocketPoolMaxIdle ⟨conn, key, s.now⟩
        have hle := count_bucket_le
          (s.pool.insert cfg.settings.websocketPoolMaxIdle ⟨conn, key, s.now⟩).2 key conn
        exact absurd (List.count_pos_iff.mp (hpos.trans_le hle)) hnot
  | lost raised h hprobe => cases hreturned

/-- **When `release` keeps its connection**: it was not in the pool, and if there is
a probe, it does not end with a cancellation or a message that cannot be read. -/
theorem keepsConnection_iff (cfg : Config) (pool : Pool) (sockets : ℕ → Socket) (now : ℚ)
    (conn : ℕ) (key? : Option WebSocketPoolKey) (probe : Probe) :
    KeepsConnection cfg (alone pool sockets now) conn key? probe
        (runRelease cfg (alone pool sockets now) conn key? probe) ↔
      conn ∉ conns pool ∧
        (Probes cfg (alone pool sockets now) conn key? → probe.Settles cfg) := by
  have hends : Released cfg (alone pool sockets now) conn key? probe _ :=
    runRelease_released rfl conn key? probe
  exact ⟨hends.of_keepsConnection, fun h => hends.keepsConnection h.1 h.2⟩

/-- A pending message that is not UTF-8. -/
def garbled : Probe := .message (.binary ⟨#[0xff]⟩)

/-- The key of a request without headers. -/
def bareKey : WebSocketPoolKey :=
  websocketPoolKey sampleConfig (py "wss://upstream/responses") []

/-- The message cannot be decoded, and the connection is neither in the pool nor
closed. -/
theorem not_keepsConnection_garbled :
    (runRelease sampleConfig (alone Pool.empty (fun _ => {}) 0) 0 (some bareKey) garbled).2
        = ⟨.raised (.exc (.other "UnicodeDecodeError")), []⟩ ∧
      conns (runRelease sampleConfig (alone Pool.empty (fun _ => {}) 0) 0 (some bareKey)
        garbled).1.pool = [] ∧
      ¬KeepsConnection sampleConfig (alone Pool.empty (fun _ => {}) 0) 0 (some bareKey) garbled
        (runRelease sampleConfig (alone Pool.empty (fun _ => {}) 0) 0 (some bareKey)
          garbled) := by
  have hends : (runRelease sampleConfig (alone Pool.empty (fun _ => {}) 0) 0 (some bareKey)
      garbled).2 = ⟨.raised (.exc (.other "UnicodeDecodeError")), []⟩ := by
    decide +kernel
  refine ⟨hends, by decide +kernel, fun h => ?_⟩
  have hreturned := h.returned
  rw [hends] at hreturned
  cases hreturned

end WebSocketBridgePool

end CodexResetProxy
