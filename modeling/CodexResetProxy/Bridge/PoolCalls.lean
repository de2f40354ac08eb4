import CodexResetProxy.Bridge.System
import CodexResetProxy.Bridge.PoolOrder

/-!
`WebSocketBridgePool` on its own: calls of `_checkout`, `release` and `aclose`,
any number of them at once and over any keys, that share the dictionary, the
lock and the clock.

A call is where its coroutine is suspended (`CallPc`); what runs between two
`await`s runs at once. The time a call stamps an entry with is read before it
acquires the lock, and a lock that is free is acquired without a suspension.

* `withLock`: `async with self._lock`, with what each method does under it.
* `startRelease`, `received`, `resumed`: the calls between their `await`s.
* `system`: the transition system.
* `Invariant`: the lock is free at every `await`, so that the stamps go into a
  bucket in the order of the clock; `Invariant.step`, `invariant_of_reachable`.
* `Call.Closes`: how a call closes a list of entries (`closes_of_path`).
* `lruLaw`: the dictionary keeps its shape, `release` evicts the oldest entry,
  `_checkout` takes the newest usable one.
-/

namespace CodexResetProxy

open Transition

namespace WebSocketBridgePool

/-- What a method does under the lock, with what it has read before:
`_checkout`, `release`, `aclose`. -/
inductive Guarded where
  | taking (key : WebSocketPoolKey) (now : ℚ)
  | putting (idle : Idle)
  | clearing
  deriving DecidableEq

/-- Where a call is suspended: in the probe of `release`, waiting for the lock,
closing an entry, with more to close before it returns; or how it ended. -/
inductive CallPc where
  | probing (conn : ℕ) (key : WebSocketPoolKey)
  | acquiring (guarded : Guarded)
  | closing (result : Option Idle) (rest : List Idle)
  | returned (result : Option Idle)
  | raised (raised : Raised)
  deriving DecidableEq

/-- A call, and the connections whose contexts it has exited. -/
structure Call where
  pc : CallPc
  exited : List ℕ
  deriving DecidableEq

/-- What the calls share; `released` lists what was put into the pool. -/
structure State where
  pool : Pool
  locked : Bool
  sockets : ℕ → Socket
  now : ℚ
  calls : List Call
  released : List Idle

/-- What the `recv` of the probe comes to: a message, an `Exception`, a
cancellation. -/
inductive Probe where
  | message (message : Message)
  | raised (e : Exc)
  | cancelled
  deriving DecidableEq

variable (cfg : Config)

/-- `_is_idle_entry_usable`. -/
def isIdleEntryUsable (s : State) (now : ℚ) (entry : Idle) : Bool :=
  if cfg.settings.websocketPoolIdleTimeoutSeconds < .finite (now - entry.lastUsedAt) then false
  else websocketAppearsOpen cfg.runtime (s.sockets entry.conn)

/-- What runs under the lock, with what the call will return and the entries it
has to close. -/
def underLock (s : State) : Guarded → State × Option Idle × List Idle
  | .taking key now =>
      let out := s.pool.checkout (isIdleEntryUsable cfg s now) key
      ({ s with pool := out.pool }, out.selected, out.stale)
  | .putting idle =>
      let (closeLater, pool) := s.pool.insert cfg.settings.websocketPoolMaxIdle idle
      ({ s with pool := pool, released := s.released ++ [idle] }, none, closeLater)
  | .clearing =>
      let (idle, pool) := s.pool.clear
      ({ s with pool := pool }, none, idle)

/-- The next entry is closed, up to the `await`; after the last one the call
returns. -/
def closeNext (exited : List ℕ) (result : Option Idle) : List Idle → Call
  | [] => ⟨.returned result, exited⟩
  | entry :: rest => ⟨.closing result rest, exited ++ [entry.conn]⟩

/-- `async with self._lock`, and what follows it up to the next `await`. -/
def withLock (s : State) (guarded : Guarded) : State × Call :=
  if s.locked then (s, ⟨.acquiring guarded, []⟩)
  else
    let (s, result, closeLater) := underLock cfg { s with locked := true } guarded
    ({ s with locked := false }, closeNext [] result closeLater)

/-- `_close_context_quietly(opened.context)`, up to the `await`. -/
def closeOpened (conn : ℕ) : Call := ⟨.closing none [], [conn]⟩

/-- `release`, up to its first `await`. -/
def startRelease (s : State) (conn : ℕ) (key? : Option WebSocketPoolKey) : State × Call :=
  match key? with
  | none => (s, closeOpened conn)
  | some key =>
      if cfg.settings.websocketPoolMaxIdle = 0 ∨
          cfg.settings.websocketPoolIdleTimeoutSeconds ≤ 0 then (s, closeOpened conn)
      else if websocketAppearsOpen cfg.runtime (s.sockets conn) = false then
        (s, closeOpened conn)
      else (s, ⟨.probing conn key, []⟩)

/-- `release`, from the `recv` of its probe to the next `await`. -/
def received (s : State) (conn : ℕ) (key : WebSocketPoolKey) : Probe → State × Call
  | .raised .timeout => withLock cfg s (.putting ⟨conn, key, s.now⟩)
  | .raised _ => (s, closeOpened conn)
  | .message message =>
      match websocketMessageToText message >>= eventType cfg.runtime.depth with
      | .ok _ => (s, closeOpened conn)
      | .error e => (s, ⟨.raised (.exc e.exc), []⟩)
  | .cancelled => (s, ⟨.raised .cancelled, []⟩)

/-- A call, from the lock or from the end of an entry to the next `await`. -/
def resumed (s : State) (call : Call) (outcome : Outcome) : Option (State × Call) :=
  match call.pc, outcome with
  | .acquiring guarded, .returned => if s.locked then none else some (withLock cfg s guarded)
  | .acquiring _, .cancelled => some (s, ⟨.raised .cancelled, call.exited⟩)
  | .closing _ _, .cancelled => some (s, ⟨.raised .cancelled, call.exited⟩)
  | .closing _ _, .wrote => none
  | .closing result rest, _ => some (s, closeNext call.exited result rest)
  | _, _ => none

/-- What happens next: a method is called, a call goes on, the state of a
connection changes, time passes. -/
inductive Action where
  | checkout (key : WebSocketPoolKey)
  | release (conn : ℕ) (key? : Option WebSocketPoolKey)
  | aclose
  | received (call : ℕ) (probe : Probe)
  | resumed (call : ℕ) (outcome : Outcome)
  | setSocket (conn : ℕ) (socket : Socket)
  | tick (seconds : ℚ)

/-- A call begins. -/
def State.start (p : State × Call) : State := { p.1 with calls := p.1.calls ++ [p.2] }

/-- A call has gone on. -/
def State.update (i : ℕ) (p : State × Call) : State := { p.1 with calls := p.1.calls.set i p.2 }

/-- One step of the pool. -/
def step (s : State) : Action → Option State
  | .checkout key => some (.start (withLock cfg s (.taking key s.now)))
  | .release conn key? => some (.start (startRelease cfg s conn key?))
  | .aclose => some (.start (withLock cfg s .clearing))
  | .received i probe =>
      match s.calls[i]? with
      | some ⟨.probing conn key, _⟩ => some (.update i (received cfg s conn key probe))
      | _ => none
  | .resumed i outcome =>
      (s.calls[i]?.bind fun call => resumed cfg s call outcome).map (State.update i)
  | .setSocket conn socket =>
      some { s with sockets := Function.update s.sockets conn socket }
  | .tick seconds => if 0 ≤ seconds then some { s with now := s.now + seconds } else none

/-- A pool that was just made, at a time of the clock, and what will become of
connections. -/
def init (now : ℚ) (sockets : ℕ → Socket) : State := ⟨Pool.empty, false, sockets, now, [], []⟩

/-- The calls of a pool. -/
def system (now : ℚ) (sockets : ℕ → Socket) : System State Action where
  init := init now sockets
  step := step cfg

@[simp] lemma system_step (now : ℚ) (sockets : ℕ → Socket) :
    (system cfg now sockets).step = step cfg := rfl

/-! ### The lock is free -/

/-- An entry is stamped with the time it is put into the pool at, and a pool that
keeps nothing gets none. -/
def Guarded.Timely (s : State) : Guarded → Prop
  | .putting idle => idle.lastUsedAt = s.now ∧ 0 < cfg.settings.websocketPoolMaxIdle
  | _ => True

/-- No call waits for the lock, or probes for a pool that keeps nothing. -/
def CallPc.Settled : CallPc → Prop
  | .probing _ _ => 0 < cfg.settings.websocketPoolMaxIdle
  | .acquiring _ => False
  | _ => True

/-- What a call can do from one `await` to the next. -/
structure Effect (s : State) (p : State × Call) : Prop where
  change : Pool.Change cfg.settings.websocketPoolMaxIdle s.now s.pool s.released
    p.1.pool p.1.released
  now_eq : p.1.now = s.now
  free : p.1.locked = false
  calls_eq : p.1.calls = s.calls
  settled : p.2.pc.Settled cfg

/-- The lock is free at every `await`, and the pool is in order. -/
structure Invariant (s : State) : Prop where
  free : s.locked = false
  settled : ∀ call ∈ s.calls, call.pc.Settled cfg
  ordered : s.pool.Ordered cfg.settings.websocketPoolMaxIdle s.now s.released

variable {cfg} {s t u : State} {guarded : Guarded} {call : Call} {i conn : ℕ}
  {key : WebSocketPoolKey} {result : Option Idle} {stale : List Idle}

/-- **A free lock** is acquired at once. -/
lemma withLock_of_free (hfree : s.locked = false) (guarded : Guarded) :
    withLock cfg s guarded = ((underLock cfg s guarded).1,
      closeNext [] (underLock cfg s guarded).2.1 (underLock cfg s guarded).2.2) := by
  obtain ⟨pool, locked, sockets, now, calls, released⟩ := s
  obtain rfl : locked = false := hfree
  cases guarded <;> rfl

lemma closeNext_settled (exited : List ℕ) (result : Option Idle) (stale : List Idle) :
    (closeNext exited result stale).pc.Settled cfg := by
  cases stale <;> trivial

lemma Effect.same (hfree : s.locked = false) (h : call.pc.Settled cfg) :
    Effect cfg s (s, call) :=
  ⟨.stay, rfl, hfree, rfl, h⟩

lemma withLock_effect (hfree : s.locked = false) (h : guarded.Timely cfg s) :
    Effect cfg s (withLock cfg s guarded) := by
  rw [withLock_of_free hfree]
  have hsettled := @closeNext_settled cfg [] (underLock cfg s guarded).2.1
    (underLock cfg s guarded).2.2
  cases guarded with
  | taking key now => exact ⟨.checkout _ key, rfl, hfree, rfl, hsettled⟩
  | putting idle => exact ⟨.insert h.1 h.2, rfl, hfree, rfl, hsettled⟩
  | clearing => exact ⟨.clear, rfl, hfree, rfl, hsettled⟩

lemma startRelease_effect (hfree : s.locked = false) (conn : ℕ)
    (key? : Option WebSocketPoolKey) : Effect cfg s (startRelease cfg s conn key?) := by
  have hclose : Effect cfg s (s, closeOpened conn) := .same hfree trivial
  cases key? with
  | none => exact hclose
  | some key =>
      rw [startRelease]
      split_ifs with hretained hopen
      · exact hclose
      · exact hclose
      · exact .same hfree (Nat.pos_of_ne_zero fun hzero => hretained (Or.inl hzero))

lemma received_effect (hfree : s.locked = false)
    (hmax : 0 < cfg.settings.websocketPoolMaxIdle) (conn : ℕ) (key : WebSocketPoolKey)
    (probe : Probe) : Effect cfg s (received cfg s conn key probe) := by
  cases probe with
  | message message =>
      rw [received]
      split
      · exact .same hfree trivial
      · exact .same hfree trivial
  | raised e =>
      cases e with
      | timeout => exact withLock_effect hfree ⟨rfl, hmax⟩
      | _ => exact .same hfree trivial
  | cancelled => exact .same hfree trivial

/-- How a suspended call goes on: with what its probe came to, or with the end of
an entry. -/
inductive Goes (cfg : Config) (s : State) : Call → State × Call → Prop
  | probed (conn : ℕ) (key : WebSocketPoolKey) (exited : List ℕ) (probe : Probe) :
      Goes cfg s ⟨.probing conn key, exited⟩ (received cfg s conn key probe)
  | closed (result : Option Idle) (rest : List Idle) (exited : List ℕ) :
      Goes cfg s ⟨.closing result rest, exited⟩ (s, closeNext exited result rest)
  | cancelled (result : Option Idle) (rest : List Idle) (exited : List ℕ) :
      Goes cfg s ⟨.closing result rest, exited⟩ (s, ⟨.raised .cancelled, exited⟩)

/-- A call that does not wait for the lock goes on from the end of an entry. -/
lemma resumed_goes {p : State × Call} (hsettled : call.pc.Settled cfg) {outcome : Outcome}
    (h : resumed cfg s call outcome = some p) : Goes cfg s call p := by
  obtain ⟨pc, exited⟩ := call
  cases pc with
  | acquiring guarded => exact absurd hsettled id
  | closing result rest =>
      cases outcome with
      | returned => cases h; exact .closed result rest exited
      | raised e => cases h; exact .closed result rest exited
      | cancelled => cases h; exact .cancelled result rest exited
      | wrote => cases h
  | _ => cases outcome <;> cases h

lemma Goes.effect {p : State × Call} (h : Goes cfg s call p) (hfree : s.locked = false)
    (hsettled : call.pc.Settled cfg) : Effect cfg s p := by
  cases h with
  | probed conn key exited probe => exact received_effect hfree hsettled conn key probe
  | closed result rest exited => exact .same hfree (closeNext_settled _ _ _)
  | cancelled result rest exited => exact .same hfree trivial

lemma Effect.start {p : State × Call} (h : Effect cfg s p) (hs : Invariant cfg s) :
    Invariant cfg (.start p) := by
  refine ⟨h.free, fun call hcall => ?_, ?_⟩
  · have hcalls : call ∈ s.calls ++ [p.2] := by
      rw [← h.calls_eq]
      exact hcall
    rcases List.mem_append.mp hcalls with hold | hnew
    · exact hs.settled call hold
    · rw [List.mem_singleton.mp hnew]
      exact h.settled
  · have hnow : (State.start p).now = s.now := h.now_eq
    rw [hnow]
    exact hs.ordered.change h.change

lemma Effect.update {p : State × Call} (h : Effect cfg s p) (hs : Invariant cfg s) (i : ℕ) :
    Invariant cfg (.update i p) := by
  refine ⟨h.free, fun call hcall => ?_, ?_⟩
  · have hcalls : call ∈ s.calls.set i p.2 := by
      rw [← h.calls_eq]
      exact hcall
    rcases List.mem_or_eq_of_mem_set hcalls with hold | rfl
    · exact hs.settled call hold
    · exact h.settled
  · have hnow : (State.update i p).now = s.now := h.now_eq
    rw [hnow]
    exact hs.ordered.change h.change

/-- What a step of the pool can do: a call begins, a call goes on, time passes or a
connection changes. -/
inductive Moves (cfg : Config) (s : State) : State → Prop
  | start {p : State × Call} (h : Effect cfg s p) : Moves cfg s (.start p)
  | update {p : State × Call} {i : ℕ} {call : Call} (hcall : s.calls[i]? = some call)
      (h : Goes cfg s call p) : Moves cfg s (.update i p)
  | around {sockets : ℕ → Socket} {now : ℚ} (h : s.now ≤ now) :
      Moves cfg s { s with sockets := sockets, now := now }

lemma Invariant.settled_of_get? (hs : Invariant cfg s) (hcall : s.calls[i]? = some call) :
    call.pc.Settled cfg :=
  hs.settled call (List.mem_of_getElem? hcall)

/-- **A step of the pool** does one of its moves. -/
theorem step_moves {a : Action} (hs : Invariant cfg s) (h : step cfg s a = some t) :
    Moves cfg s t := by
  cases a with
  | checkout key => cases h; exact .start (withLock_effect hs.free trivial)
  | release conn key? => cases h; exact .start (startRelease_effect hs.free conn key?)
  | aclose => cases h; exact .start (withLock_effect hs.free trivial)
  | received i probe =>
      rw [step] at h
      split at h
      · rename_i conn key exited hcall
        cases h
        exact .update hcall (.probed conn key exited probe)
      · cases h
  | resumed i outcome =>
      obtain ⟨p, hp, rfl⟩ := Option.map_eq_some_iff.mp h
      obtain ⟨call, hcall, hp⟩ := Option.bind_eq_some_iff.mp hp
      exact .update hcall (resumed_goes (hs.settled_of_get? hcall) hp)
  | setSocket conn socket => cases h; exact .around le_rfl
  | tick seconds =>
      rw [step] at h
      split_ifs at h with hle
      cases h
      exact .around (le_add_of_nonneg_right hle)

lemma Moves.invariant (h : Moves cfg s t) (hs : Invariant cfg s) : Invariant cfg t := by
  cases h with
  | start h => exact h.start hs
  | update hcall h => exact (h.effect hs.free (hs.settled_of_get? hcall)).update hs _
  | around hle => exact ⟨hs.free, hs.settled, hs.ordered.later hle⟩

lemma invariant_init (now : ℚ) (sockets : ℕ → Socket) : Invariant cfg (init now sockets) :=
  ⟨rfl, by simp [init], Pool.Ordered.empty _ _⟩

section

variable {now : ℚ} {sockets : ℕ → Socket} {l : List (State × Action)}

lemma invariant_of_path (h : (system cfg now sockets).Path s l t) (hs : Invariant cfg s) :
    Invariant cfg t :=
  h.invariant_of_steps (I := Invariant cfg) (P := fun _ _ => True)
    (fun _ _ _ hs _ hstep => (step_moves hs hstep).invariant hs) hs (by simp)

/-- **At every `await` the lock is free** and the pool in order. -/
theorem invariant_of_reachable (h : (system cfg now sockets).Reachable s) :
    Invariant cfg s := by
  obtain ⟨l, hpath⟩ := h
  exact invariant_of_path hpath (invariant_init now sockets)

end

/-! ### How a call closes its entries -/

/-- A call closes a list of entries, in order, and then returns a result: it has
closed some of them and not the rest, or all of them, or it was cancelled while
it closed one. -/
inductive Call.Closes (result : Option Idle) (stale : List Idle) : Call → Prop
  | closing {done rest : List Idle} {entry : Idle} (h : stale = done ++ entry :: rest) :
      Closes result stale ⟨.closing result rest, done.map Idle.conn ++ [entry.conn]⟩
  | returned : Closes result stale ⟨.returned result, stale.map Idle.conn⟩
  | cancelled {done rest : List Idle} {entry : Idle} (h : stale = done ++ entry :: rest) :
      Closes result stale ⟨.raised .cancelled, done.map Idle.conn ++ [entry.conn]⟩

lemma closeNext_closes (done : List Idle) {rest : List Idle} (result : Option Idle)
    (h : stale = done ++ rest) :
    (closeNext (done.map Idle.conn) result rest).Closes result stale := by
  cases rest with
  | nil =>
      rw [List.append_nil] at h
      rw [← h]
      exact .returned
  | cons entry rest => exact .closing h

lemma Goes.closes {p : State × Call} (h : Goes cfg s call p) (hcall : call.Closes result stale) :
    p.2.Closes result stale := by
  cases hcall with
  | @closing done rest entry hstale =>
      cases h with
      | closed _ _ _ =>
          have hdone : done.map Idle.conn ++ [entry.conn] = (done ++ [entry]).map Idle.conn := by
            simp
          rw [hdone]
          exact closeNext_closes _ result (by simp [hstale])
      | cancelled _ _ _ => exact .cancelled hstale
  | returned => cases h
  | cancelled _ => cases h

/-- With one entry or none, a call has closed what it will close. -/
lemma Call.Closes.exited_eq (h : call.Closes result stale) (hlen : stale.length ≤ 1) :
    call.exited = stale.map Idle.conn := by
  have hlast : ∀ {done rest : List Idle} {entry : Idle}, stale = done ++ entry :: rest →
      done.map Idle.conn ++ [entry.conn] = stale.map Idle.conn := by
    intro done rest entry hstale
    rw [hstale, List.length_append, List.length_cons] at hlen
    have hdone : done = [] := List.eq_nil_of_length_eq_zero (by omega)
    have hrest : rest = [] := List.eq_nil_of_length_eq_zero (by omega)
    simp [hstale, hdone, hrest]
  cases h with
  | closing hstale => exact hlast hstale
  | returned => rfl
  | cancelled hstale => exact hlast hstale

/-- A call of the pool closes a list of entries. -/
def State.Closes (s : State) (i : ℕ) (result : Option Idle) (stale : List Idle) : Prop :=
  ∃ call, s.calls[i]? = some call ∧ call.Closes result stale

lemma Moves.closes (h : Moves cfg s t) (hs : Invariant cfg s)
    (hcloses : s.Closes i result stale) : t.Closes i result stale := by
  obtain ⟨call, hcall, hcloses⟩ := hcloses
  have hlt : i < s.calls.length := (List.getElem?_eq_some_iff.mp hcall).1
  cases h with
  | @start p h =>
      refine ⟨call, ?_, hcloses⟩
      show (p.1.calls ++ [p.2])[i]? = some call
      rw [h.calls_eq, List.getElem?_append_left hlt, hcall]
  | @update p j call' hcall' h =>
      have hcalls := (h.effect hs.free (hs.settled_of_get? hcall')).calls_eq
      by_cases hij : j = i
      · subst hij
        obtain rfl : call' = call := Option.some.inj (hcall'.symm.trans hcall)
        refine ⟨p.2, ?_, h.closes hcloses⟩
        show (p.1.calls.set j p.2)[j]? = some p.2
        rw [hcalls, List.getElem?_set_self hlt]
      · refine ⟨call, ?_, hcloses⟩
        show (p.1.calls.set j p.2)[i]? = some call
        rw [hcalls, List.getElem?_set_ne hij, hcall]
  | around _ => exact ⟨call, hcall, hcloses⟩

/-- **Whatever the other calls do**, a call closes the entries it has to. -/
theorem closes_of_path {now : ℚ} {sockets : ℕ → Socket} {l : List (State × Action)}
    (h : (system cfg now sockets).Path s l t) (hs : Invariant cfg s)
    (hcloses : s.Closes i result stale) : t.Closes i result stale := by
  refine (h.invariant_of_steps (I := fun s => Invariant cfg s ∧ s.Closes i result stale)
    (P := fun _ _ => True) ?_ ⟨hs, hcloses⟩ (by simp)).2
  rintro s a t ⟨hs, hcloses⟩ - hstep
  have hmoves := step_moves hs hstep
  exact ⟨hmoves.invariant hs, hmoves.closes hs hcloses⟩

/-! ### The least recently released entry -/

lemma Moves.change (h : Moves cfg s t) (hs : Invariant cfg s) :
    Pool.Change cfg.settings.websocketPoolMaxIdle s.now s.pool s.released t.pool t.released := by
  cases h with
  | start h => exact h.change
  | update hcall h => exact (h.effect hs.free (hs.settled_of_get? hcall)).change
  | around _ => exact .stay

/-- After a bucket was emptied, it only holds what was released since. -/
lemma bucket_of_path {now : ℚ} {sockets : ℕ → Socket} {l : List (State × Action)}
    (h : (system cfg now sockets).Path s l t) (hs : Invariant cfg s)
    (hempty : s.pool.bucket key = []) :
    ∃ new, t.released = s.released ++ new ∧ (t.pool.bucket key).Sublist new := by
  refine (h.invariant_of_steps (P := fun _ _ => True)
    (I := fun t => Invariant cfg t ∧
      ∃ new, t.released = s.released ++ new ∧ (t.pool.bucket key).Sublist new)
    ?_ ⟨hs, [], by simp, by simp [hempty]⟩ (by simp)).2
  rintro t a u ⟨ht, new, hreleased, hsub⟩ - hstep
  have hmoves := step_moves ht hstep
  exact ⟨hmoves.invariant ht, (hmoves.change ht).bucket_sublist hreleased hsub⟩

/-- A call of `release` puts an entry into the pool: into a full bucket in the place
of the one entry that is older than all others, which it closes. -/
structure PutBack (cfg : Config) (now : ℚ) (sockets : ℕ → Socket) (s t : State) (i : ℕ)
    (idle : Idle) (evicted kept : List Idle) : Prop where
  bucket_eq : s.pool.bucket idle.key = evicted ++ kept
  length_eq : evicted.length =
    if (s.pool.bucket idle.key).length = cfg.settings.websocketPoolMaxIdle then 1 else 0
  get?_eq : t.pool.idle.get? idle.key = some (kept ++ [idle])
  oldest : ∀ e ∈ evicted, ∀ e' ∈ kept ++ [idle], e.lastUsedAt ≤ e'.lastUsedAt
  others : ∀ key, key ≠ idle.key → t.pool.idle.get? key = s.pool.idle.get? key
  closes : ∀ l u, (system cfg now sockets).Path t l u →
    ∃ call, u.calls[i]? = some call ∧ call.Closes none evicted ∧
      call.exited = evicted.map Idle.conn

/-- A call of `_checkout` takes the newest usable entry of a bucket and closes those
that are newer; or there is none, and it closes all and the key is gone, until
something is released under it. -/
inductive CheckedOut (cfg : Config) (now : ℚ) (sockets : ℕ → Socket) (s t : State) (i : ℕ)
    (key : WebSocketPoolKey) : Prop
  | hit {older newer : List Idle} {selected : Idle}
      (hbucket : s.pool.bucket key = older ++ selected :: newer)
      (husable : isIdleEntryUsable cfg s s.now selected = true)
      (hstale : ∀ e ∈ newer, isIdleEntryUsable cfg s s.now e = false)
      (holder : ∀ e ∈ older, e.lastUsedAt ≤ selected.lastUsedAt)
      (hnewer : ∀ e ∈ newer, selected.lastUsedAt ≤ e.lastUsedAt)
      (hleft : t.pool.idle.get? key = if older = [] then none else some older)
      (hcloses : ∀ l u, (system cfg now sockets).Path t l u →
        u.Closes i (some selected) newer.reverse)
  | miss (hstale : ∀ e ∈ s.pool.bucket key, isIdleEntryUsable cfg s s.now e = false)
      (hgone : t.pool.idle.get? key = none)
      (hstays : ∀ l u, (system cfg now sockets).Path t l u →
        ∃ new, u.released = t.released ++ new ∧ (u.pool.bucket key).Sublist new)
      (hcloses : ∀ l u, (system cfg now sockets).Path t l u →
        u.Closes i none (s.pool.bucket key).reverse)

/-- What holds of the pool under any interleaving of its methods. -/
structure LruLaw (cfg : Config) (now : ℚ) (sockets : ℕ → Socket) : Prop where
  represents : ∀ s, (system cfg now sockets).Reachable s →
    s.pool.Represents cfg.settings.websocketPoolMaxIdle
  inOrder : ∀ s, (system cfg now sockets).Reachable s →
    ∀ key, (s.pool.bucket key).Sublist s.released
  putBack : ∀ s i conn key exited, (system cfg now sockets).Reachable s →
    s.calls[i]? = some ⟨.probing conn key, exited⟩ →
    ∃ t evicted kept, step cfg s (.received i (.raised .timeout)) = some t ∧
      t.released = s.released ++ [⟨conn, key, s.now⟩] ∧
      PutBack cfg now sockets s t i ⟨conn, key, s.now⟩ evicted kept
  checkedOut : ∀ s key, (system cfg now sockets).Reachable s →
    ∃ t, step cfg s (.checkout key) = some t ∧
      (∀ key', key' ≠ key → t.pool.idle.get? key' = s.pool.idle.get? key') ∧
      CheckedOut cfg now sockets s t s.calls.length key

/-- The oldest entries of a bucket are older than those that stay. -/
lemma oldest_of_ordered {idle : Idle} {released : List Idle} {pool : Pool}
    {now : ℚ} {maxIdle : ℕ} {evicted kept : List Idle}
    (h : pool.Ordered maxIdle now released) (hnow : idle.lastUsedAt = now)
    (hbucket : pool.bucket key = evicted ++ kept) :
    ∀ e ∈ evicted, ∀ e' ∈ kept ++ [idle], e.lastUsedAt ≤ e'.lastUsedAt := by
  have hsorted := h.sorted.sublist (h.sublist key)
  rw [hbucket] at hsorted
  intro e he e' he'
  rcases List.mem_append.mp he' with he' | he'
  · exact (List.pairwise_append.mp hsorted).2.2 e he e' he'
  · have hmem : e ∈ pool.bucket key := hbucket ▸ List.mem_append_left _ he
    rw [List.mem_singleton.mp he', hnow]
    exact h.past e ((h.sublist key).subset hmem)

/-- The probe of a call times out. -/
lemma step_timedOut {exited : List ℕ} (hs : Invariant cfg s)
    (hcall : s.calls[i]? = some ⟨.probing conn key, exited⟩) :
    ∃ t, step cfg s (.received i (.raised .timeout)) = some t ∧
      t.pool = (s.pool.insert cfg.settings.websocketPoolMaxIdle ⟨conn, key, s.now⟩).2 ∧
      t.released = s.released ++ [⟨conn, key, s.now⟩] ∧
      t.Closes i none (s.pool.insert cfg.settings.websocketPoolMaxIdle ⟨conn, key, s.now⟩).1 := by
  have hlt : i < s.calls.length := (List.getElem?_eq_some_iff.mp hcall).1
  have hstep : step cfg s (.received i (.raised .timeout))
      = some (.update i (withLock cfg s (.putting ⟨conn, key, s.now⟩))) := by
    simp [step, hcall, received]
  rw [withLock_of_free hs.free] at hstep
  exact ⟨_, hstep, rfl, rfl, _, List.getElem?_set_self hlt,
    closeNext_closes [] none rfl⟩

/-- `_checkout` is called. -/
lemma step_checkout (hs : Invariant cfg s) (key : WebSocketPoolKey) :
    ∃ t, step cfg s (.checkout key) = some t ∧
      t.pool = (s.pool.checkout (isIdleEntryUsable cfg s s.now) key).pool ∧
      t.Closes s.calls.length (s.pool.checkout (isIdleEntryUsable cfg s s.now) key).selected
        (s.pool.checkout (isIdleEntryUsable cfg s s.now) key).stale := by
  have hstep : step cfg s (.checkout key)
      = some (.start (withLock cfg s (.taking key s.now))) := rfl
  rw [withLock_of_free hs.free] at hstep
  exact ⟨_, hstep, rfl, _, List.getElem?_concat_length,
    closeNext_closes [] _ rfl⟩

/-- A release puts its entry in the place of the oldest one. -/
lemma putBack_of_invariant {now : ℚ} {sockets : ℕ → Socket} {exited : List ℕ}
    (hs : Invariant cfg s) (hcall : s.calls[i]? = some ⟨.probing conn key, exited⟩) :
    ∃ t evicted kept, step cfg s (.received i (.raised .timeout)) = some t ∧
      t.released = s.released ++ [⟨conn, key, s.now⟩] ∧
      PutBack cfg now sockets s t i ⟨conn, key, s.now⟩ evicted kept := by
  have hmax : 0 < cfg.settings.websocketPoolMaxIdle := hs.settled_of_get? hcall
  obtain ⟨t, hstep, hpool, hreleased, hcloses⟩ := step_timedOut hs hcall
  have ht := (step_moves hs hstep).invariant hs
  set n := (s.pool.bucket key).length + 1 - cfg.settings.websocketPoolMaxIdle with hn
  have hsplit : s.pool.bucket key = (s.pool.bucket key).take n ++ (s.pool.bucket key).drop n :=
    (List.take_append_drop _ _).symm
  have hlength : ((s.pool.bucket key).take n).length =
      if (s.pool.bucket key).length = cfg.settings.websocketPoolMaxIdle then 1 else 0 := by
    have hle := hs.ordered.length_le key
    rw [List.length_take]
    split_ifs <;> omega
  rw [Pool.insert_fst] at hcloses
  refine ⟨t, _, _, hstep, hreleased, hsplit, hlength, ?_,
    oldest_of_ordered hs.ordered rfl hsplit, fun key' hkey => ?_, fun l u hpath => ?_⟩
  · rw [hpool]
    exact Pool.get?_insert_self s.pool cfg.settings.websocketPoolMaxIdle ⟨conn, key, s.now⟩
  · rw [hpool]
    exact Pool.get?_insert_of_ne s.pool _ _ hkey
  · obtain ⟨call, hget, hcall⟩ := closes_of_path hpath ht hcloses
    refine ⟨call, hget, hcall, hcall.exited_eq ?_⟩
    rw [hlength]
    split_ifs <;> omega

/-- A checkout takes the newest usable entry. -/
lemma checkedOut_of_invariant {now : ℚ} {sockets : ℕ → Socket} (hs : Invariant cfg s)
    (key : WebSocketPoolKey) :
    ∃ t, step cfg s (.checkout key) = some t ∧
      (∀ key', key' ≠ key → t.pool.idle.get? key' = s.pool.idle.get? key') ∧
      CheckedOut cfg now sockets s t s.calls.length key := by
  obtain ⟨t, hstep, hpool, hcloses⟩ := step_checkout hs key
  have ht := (step_moves hs hstep).invariant hs
  refine ⟨t, hstep, fun key' hkey => ?_, ?_⟩
  · rw [hpool]
    exact Pool.get?_checkout_of_ne s.pool _ hkey
  have hends : ∀ l u, (system cfg now sockets).Path t l u → u.Closes s.calls.length _ _ :=
    fun l u hpath => closes_of_path hpath ht hcloses
  have hsorted := hs.ordered.sorted.sublist (hs.ordered.sublist key)
  -- the bucket is cut at the youngest usable entry, or is used up
  have htaken := Pool.checkout_taken s.pool (isIdleEntryUsable cfg s s.now) key
  rw [← hpool] at htaken
  generalize hbucket : s.pool.bucket key = b, hleft : t.pool.bucket key = left at htaken
  generalize (s.pool.checkout (isIdleEntryUsable cfg s s.now) key).selected = selected,
    (s.pool.checkout (isIdleEntryUsable cfg s s.now) key).stale = stale at htaken hends
  cases htaken with
  | @found older newer selected husable hstale =>
      rw [hbucket] at hsorted
      obtain ⟨-, hnewer, holder⟩ := List.pairwise_append.mp hsorted
      refine .hit hbucket husable hstale (fun e he => holder e he selected List.mem_cons_self)
        (List.pairwise_cons.mp hnewer).1 ?_ hends
      rw [ht.ordered.get?_eq, hleft]
  | exhausted hstale =>
      rw [← hbucket] at hstale hends
      refine .miss hstale ?_ (fun l u hpath => bucket_of_path hpath ht hleft) hends
      rw [ht.ordered.get?_eq, hleft, if_pos rfl]

/-- **The pool under any interleaving**: the dictionary keeps its shape, `release`
evicts the oldest entry of a full bucket, `_checkout` takes the newest usable
one. -/
theorem lruLaw (cfg : Config) (now : ℚ) (sockets : ℕ → Socket) : LruLaw cfg now sockets where
  represents _ hs := (invariant_of_reachable hs).ordered.represents
  inOrder _ hs := (invariant_of_reachable hs).ordered.sublist
  putBack _ _ _ _ _ hs hcall := putBack_of_invariant (invariant_of_reachable hs) hcall
  checkedOut _ key hs := checkedOut_of_invariant (invariant_of_reachable hs) key

end WebSocketBridgePool

end CodexResetProxy
