import CodexResetProxy.Bridge.Isolation
import CodexResetProxy.Library.Retry

/-!
`open_websocket_bridge_with_retries` as one call, with a pool and without, when
nothing else uses the pool meanwhile.

An attempt uses an idle connection if the pool has one that appears open, and
opens a fresh one otherwise; every attempt counts. What becomes of the operations
on each connection is given (`Scene`).

* `available_attempts`: with a pool, the attempts are those on the idle
  connections, last first, and then those on fresh ones.
* `opensPooled_iff`, `opensUnpooled_iff`: when the call returns a bridge.
* `poolingHarmless_iff`: when a call that succeeds without the pool succeeds with
  it.
-/

namespace CodexResetProxy

open Retry

/-- What becomes of a connection that is used: of the `send` of
`response.create`, and of the first `recv`. -/
structure Usage where
  send : Option Exc
  recv : Except Exc Message

/-- What becomes of a fresh connection: of its opening, and of its use. -/
structure Opening where
  connect : Option Exc
  usage : Usage

/-- What a call meets: which idle entries appear usable, what becomes of each idle
connection, and of the fresh ones by order of opening. `checkout` takes out of the pool
each entry that it looks at, so a call looks at an entry at most once, and one answer for
each entry is all there is to say, whatever happens to a connection from one attempt to
the next. -/
structure Scene where
  usable : Idle → Bool
  idle : ℕ → Usage
  fresh : ℕ → Opening

/-- What a call changes: the pool, and how many connections were opened. -/
structure Sockets where
  pool : Pool
  opened : ℕ

/-- `OpenedWebSocketBridge`: the attempt that opened it and its first message. -/
structure Bridge where
  attempts : ℕ
  firstMessage : Message

variable (cfg : Config)

/-- What an attempt comes to. -/
abbrev BridgeAttempt := Attempt BridgeError Raised Message

/-- `response.create` is sent, and the first message received. -/
def useConnection (u : Usage) : BridgeAttempt :=
  match u.send with
  | some e => .failed (openError e)
  | none =>
      match u.recv with
      | .ok message => .done message
      | .error e =>
          match firstMessageError? cfg e with
          | some err => .failed err
          | none => .raised (.exc e)

/-- The same on a connection that is opened first. -/
def openFresh (o : Opening) : BridgeAttempt :=
  match o.connect with
  | some e => .failed (openError e)
  | none => useConnection cfg o.usage

/-- One attempt of `open_websocket_bridge_with_retries`, with the pool or without
it. What `build_response_create_request` raises has status 400, so it is raised
again. -/
def openAttempt (scene : Scene) (r : Request) (pooled : Bool) (attempt : ℕ) (s : Sockets) :
    BridgeAttempt × Sockets :=
  match buildResponseCreateRequest cfg.runtime.depth r.body with
  | .error (.bridge e) => (.raised (.bridge { e with attempts := attempt }), s)
  | .error e => (.raised e, s)
  | .ok _ =>
      if pooled then
        let out := s.pool.checkout scene.usable (r.key cfg)
        match out.selected with
        | some entry => (useConnection cfg (scene.idle entry.conn), { s with pool := out.pool })
        | none => (openFresh cfg (scene.fresh s.opened), ⟨out.pool, s.opened + 1⟩)
      else (openFresh cfg (scene.fresh s.opened), { s with opened := s.opened + 1 })

/-- `open_websocket_bridge_with_retries`. The pauses between attempts make no
difference here. -/
def openWebsocketBridgeWithRetries (scene : Scene) (r : Request) (pool : Option Pool) :
    Except Raised Bridge :=
  match (run (openAttempt cfg scene r pool.isSome) cfg.settings.upstreamMaxAttempts 1
      ⟨pool.getD .empty, 0⟩ (firstMessageTimeout cfg)).1 with
  | .done (attempt, message) => .ok ⟨attempt, message⟩
  | .failed e => .error (.bridge { e with attempts := cfg.settings.upstreamMaxAttempts })
  | .raised e => .error e

variable {cfg} {scene : Scene} {r : Request}

/-- What the attempts on the idle connections come to, in the order of
checkouts. -/
def idleAttempts (cfg : Config) (scene : Scene) (r : Request) (pool : Pool) :
    List BridgeAttempt :=
  (pool.available scene.usable (r.key cfg)).map fun e => useConnection cfg (scene.idle e.conn)

/-- What the attempts on fresh connections come to. -/
def freshAttempts (cfg : Config) (scene : Scene) (i : ℕ) : BridgeAttempt :=
  openFresh cfg (scene.fresh i)

/-- The attempts without a pool: one fresh connection after the other. -/
lemma results_unpooled {message : List (PyStr × Json)}
    (hbody : buildResponseCreateRequest cfg.runtime.depth r.body = .ok message) (k : ℕ)
    (s : Sockets) (i : ℕ) :
    results (openAttempt cfg scene r false) k s i
      = freshAttempts cfg scene (s.opened + i) := by
  induction i generalizing k s with
  | zero => simp [results, openAttempt, hbody, freshAttempts]
  | succ i ih =>
      rw [results, ih]
      simp [openAttempt, hbody, Nat.add_assoc, Nat.add_comm 1]

/-- An attempt with a pool that has no usable entry. -/
lemma openAttempt_of_nil {message : List (PyStr × Json)}
    (hbody : buildResponseCreateRequest cfg.runtime.depth r.body = .ok message) (k : ℕ)
    {s : Sockets} (hs : s.pool.available scene.usable (r.key cfg) = []) :
    ∃ pool, openAttempt cfg scene r true k s
        = (openFresh cfg (scene.fresh s.opened), ⟨pool, s.opened + 1⟩) ∧
      pool.available scene.usable (r.key cfg) = [] := by
  obtain ⟨hselected, hleft⟩ := s.pool.checkout_available scene.usable (r.key cfg)
  rw [hs] at hselected hleft
  exact ⟨_, by simp [openAttempt, hbody, hselected], hleft⟩

/-- An attempt with a pool that has a usable entry. -/
lemma openAttempt_of_cons {message : List (PyStr × Json)}
    (hbody : buildResponseCreateRequest cfg.runtime.depth r.body = .ok message) (k : ℕ)
    {s : Sockets} {entry : Idle} {rest : List Idle}
    (hs : s.pool.available scene.usable (r.key cfg) = entry :: rest) :
    ∃ pool, openAttempt cfg scene r true k s
        = (useConnection cfg (scene.idle entry.conn), ⟨pool, s.opened⟩) ∧
      pool.available scene.usable (r.key cfg) = rest := by
  obtain ⟨hselected, hleft⟩ := s.pool.checkout_available scene.usable (r.key cfg)
  rw [hs] at hselected hleft
  exact ⟨_, by simp [openAttempt, hbody, hselected], hleft⟩

/-- **The attempts with a pool**: the idle connections in the order of checkouts,
then fresh ones. -/
theorem results_pooled {message : List (PyStr × Json)}
    (hbody : buildResponseCreateRequest cfg.runtime.depth r.body = .ok message) (k : ℕ)
    (s : Sockets) (i : ℕ) :
    results (openAttempt cfg scene r true) k s i
      = after (idleAttempts cfg scene r s.pool)
        (fun j => freshAttempts cfg scene (s.opened + j)) i := by
  induction i generalizing k s with
  -- the attempt that comes next: an idle connection, or a fresh one
  | zero =>
      rw [results, idleAttempts]
      cases hs : s.pool.available scene.usable (r.key cfg) with
      | nil =>
          obtain ⟨pool, hstep, _⟩ := openAttempt_of_nil hbody k hs
          rw [hstep]
          rfl
      | cons entry rest =>
          obtain ⟨pool, hstep, _⟩ := openAttempt_of_cons hbody k hs
          rw [hstep]
          rfl
  -- it leaves one idle connection less, or one more that was opened
  | succ i ih =>
      rw [results, ih, idleAttempts, idleAttempts]
      cases hs : s.pool.available scene.usable (r.key cfg) with
      | nil =>
          obtain ⟨pool, hstep, hleft⟩ := openAttempt_of_nil hbody k hs
          rw [hstep, hleft]
          show freshAttempts cfg scene (s.opened + 1 + i) = freshAttempts cfg scene (s.opened + _)
          rw [Nat.add_assoc, Nat.add_comm 1]
      | cons entry rest =>
          obtain ⟨pool, hstep, hleft⟩ := openAttempt_of_cons hbody k hs
          rw [hstep, hleft]
          rfl

/-- The call returns a bridge. -/
def Opens (cfg : Config) (scene : Scene) (r : Request) (pool : Option Pool) : Prop :=
  ∃ b, openWebsocketBridgeWithRetries cfg scene r pool = .ok b

lemma opens_iff_run (pool : Option Pool) : Opens cfg scene r pool ↔
    (run (openAttempt cfg scene r pool.isSome) cfg.settings.upstreamMaxAttempts 1
      ⟨pool.getD .empty, 0⟩ (firstMessageTimeout cfg)).1.isDone = true := by
  rw [Opens, openWebsocketBridgeWithRetries]
  split
  · rename_i attempt message hrun
    simp [hrun, Attempt.isDone]
  · rename_i e hrun
    simp [hrun, Attempt.isDone]
  · rename_i e hrun
    simp [hrun, Attempt.isDone]

/-- The body can be wrapped. -/
def ValidBody (cfg : Config) (r : Request) : Prop :=
  ∃ message, buildResponseCreateRequest cfg.runtime.depth r.body = .ok message

/-- Without a valid body no attempt is made. -/
lemma Opens.validBody {pool : Option Pool} (h : Opens cfg scene r pool) : ValidBody cfg r := by
  rw [opens_iff_run, run_done_iff] at h
  obtain ⟨i, _, hfirst⟩ := h
  cases hbody : buildResponseCreateRequest cfg.runtime.depth r.body with
  | ok message => exact ⟨message, hbody⟩
  | error e =>
      -- the first attempt raises
      have hraised : ∃ e', results (openAttempt cfg scene r pool.isSome) 1
          ⟨pool.getD .empty, 0⟩ 0 = .raised e' := by
        cases e <;> simp [results, openAttempt, hbody]
      obtain ⟨e', hraised⟩ := hraised
      cases i with
      | zero =>
          rw [firstDone_zero, hraised] at hfirst
          exact absurd hfirst Bool.false_ne_true
      | succ i =>
          rw [firstDone_succ, hraised] at hfirst
          exact absurd hfirst.1 Bool.false_ne_true

/-- **Without a pool** the call returns a bridge if and only if the first fresh
connection that does not fail gives a message, and comes in time. -/
theorem opensUnpooled_iff : Opens cfg scene r none ↔ ValidBody cfg r ∧
    ∃ i < cfg.settings.upstreamMaxAttempts, FirstDone (freshAttempts cfg scene) i := by
  refine (and_iff_right_of_imp Opens.validBody).symm.trans (and_congr_right ?_)
  rintro ⟨message, hbody⟩
  have hresults : results (openAttempt cfg scene r false) 1 ⟨.empty, 0⟩
      = freshAttempts cfg scene := by
    funext i
    rw [results_unpooled hbody, Nat.zero_add]
  rw [opens_iff_run, run_done_iff]
  show (∃ i < _, FirstDone (results (openAttempt cfg scene r false) 1 ⟨.empty, 0⟩) i) ↔ _
  rw [hresults]

/-- **With a pool** the idle connections come first. -/
theorem opensPooled_iff (pool : Pool) : Opens cfg scene r (some pool) ↔ ValidBody cfg r ∧
    (ListDone cfg.settings.upstreamMaxAttempts (idleAttempts cfg scene r pool) ∨
      ((∀ a ∈ idleAttempts cfg scene r pool, a.isFailed = true) ∧
        ∃ i, i + (idleAttempts cfg scene r pool).length < cfg.settings.upstreamMaxAttempts ∧
          FirstDone (freshAttempts cfg scene) i)) := by
  refine (and_iff_right_of_imp Opens.validBody).symm.trans (and_congr_right ?_)
  rintro ⟨message, hbody⟩
  have hresults : results (openAttempt cfg scene r true) 1 ⟨pool, 0⟩
      = after (idleAttempts cfg scene r pool) (freshAttempts cfg scene) := by
    funext i
    rw [results_pooled hbody]
    simp only [Nat.zero_add]
  rw [opens_iff_run, run_done_iff, ← firstDone_after_iff]
  show (∃ i < _, FirstDone (results (openAttempt cfg scene r true) 1 ⟨pool, 0⟩) i) ↔ _
  rw [hresults]

/-- **When pooling is harmless**: a call that returns a bridge without the pool
returns one with it, if and only if one of the idle connections that are tried
gives a message before any raises out of the loop, or all of them fail and leave
attempts for the fresh ones up to the first that gives a message. -/
theorem poolingHarmless_iff (pool : Pool) :
    (Opens cfg scene r none → Opens cfg scene r (some pool)) ↔
      (ValidBody cfg r → ∀ i < cfg.settings.upstreamMaxAttempts,
        FirstDone (freshAttempts cfg scene) i →
          ListDone cfg.settings.upstreamMaxAttempts (idleAttempts cfg scene r pool) ∨
            ((∀ a ∈ idleAttempts cfg scene r pool, a.isFailed = true) ∧
              i + (idleAttempts cfg scene r pool).length < cfg.settings.upstreamMaxAttempts)) := by
  rw [opensUnpooled_iff, opensPooled_iff]
  constructor
  · intro h hbody i hi hfirst
    obtain ⟨_, hidle | ⟨hall, j, hj, hfirst'⟩⟩ := h ⟨hbody, i, hi, hfirst⟩
    · exact Or.inl hidle
    · rw [hfirst.unique hfirst']
      exact Or.inr ⟨hall, hj⟩
  · rintro h ⟨hbody, i, hi, hfirst⟩
    refine ⟨hbody, (h hbody i hi hfirst).imp_right fun ⟨hall, hlt⟩ => ?_⟩
    exact ⟨hall, i, hlt, hfirst⟩

/-! ### Two dead connections -/

/-- A pool with two connections under the key of a request. -/
def twoIdle (cfg : Config) (r : Request) : Pool :=
  ((Pool.empty.insert 8 ⟨0, r.key cfg, 0⟩).2.insert 8 ⟨1, r.key cfg, 0⟩).2

/-- The idle connections appear open and were closed by the peer; fresh ones
work. -/
def deadIdle : Scene where
  usable := fun _ => true
  idle := fun _ => ⟨none, .error (.webSocket "ConnectionClosedError")⟩
  fresh := fun _ => ⟨none, ⟨none, .ok sampleCompleted⟩⟩

/-- **Pooling turns a success into a failure**: both attempts are spent on dead
connections. -/
theorem not_poolingHarmless_twoIdle :
    ¬(Opens sampleConfig deadIdle sampleSecond none →
      Opens sampleConfig deadIdle sampleSecond (some (twoIdle sampleConfig sampleSecond))) := by
  have hnone : (openWebsocketBridgeWithRetries sampleConfig deadIdle sampleSecond none).isOk
      = true := by
    decide +kernel
  have hpool : (openWebsocketBridgeWithRetries sampleConfig deadIdle sampleSecond
      (some (twoIdle sampleConfig sampleSecond))).isOk = false := by
    decide +kernel
  intro h
  obtain ⟨b, hb⟩ := h (exists_of_isOk hnone)
  rw [hb] at hpool
  exact Bool.noConfusion hpool

end CodexResetProxy
