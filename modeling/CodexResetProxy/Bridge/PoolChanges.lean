import CodexResetProxy.Bridge.Moves
import CodexResetProxy.Bridge.PoolRelease

/-!
The bridge uses its pool through the methods of `WebSocketBridgePool`.

* `World.Shifts`: what a step of a task can do to the pool and the clock;
  `taskMove_shifts`: every step does one of these.
* `represents_of_reachable`: the dictionary keeps its shape in every run of the
  bridge.
* `Follows`: an attempt of a request is a call of `_checkout`, a background task one of
  `release`, and a closer one of `aclose`; `TaskMove.follows`: each goes on as its call
  does.
-/

namespace CodexResetProxy

open Transition

/-! ### Changes of the pool -/

/-- A step of a task changes the pool as the methods of the pool do, and puts an entry
into it only if it is a step that may. -/
structure World.Shifts (cfg : Config) (back : Bool) (w w' : World) : Prop where
  now_eq : w'.now = w.now
  change : ∀ released, ∃ released',
    Pool.Change cfg.settings.websocketPoolMaxIdle w.now w.pool released w'.pool released' ∧
      (back = false → released' = released)

variable {cfg : Config} {w w' : World} {r : Request} {o : Opened} {outcome : Outcome}
  {back : Bool}

namespace World

lemma Shifts.same (hpool : w'.pool = w.pool) (hnow : w'.now = w.now) : w.Shifts cfg back w' :=
  ⟨hnow, fun released => ⟨released, hpool ▸ .stay, fun _ => rfl⟩⟩

lemma Shifts.weaken (h : w.Shifts cfg false w') : w.Shifts cfg back w' :=
  ⟨h.now_eq, fun released =>
    let ⟨released', hchange, heq⟩ := h.change released
    ⟨released', hchange, fun _ => heq rfl⟩⟩

end World

lemma closeStale_eq (w : World) (r : Request) (attempt : ℕ) (selected : Option Idle)
    (stale : List Idle) : (closeStale w r attempt selected stale).1.pool = w.pool ∧
      (closeStale w r attempt selected stale).1.now = w.now := by
  cases stale with
  | cons entry stale => exact ⟨rfl, rfl⟩
  | nil => cases selected <;> exact ⟨rfl, rfl⟩

lemma startAttempt_shifts (attempt : ℕ) :
    w.Shifts cfg false (startAttempt cfg w r attempt).1 := by
  rw [startAttempt]
  split
  · exact .same rfl rfl
  · exact .same rfl rfl
  · split_ifs
    · dsimp only
      obtain ⟨hpool, hnow⟩ := closeStale_eq
        { w with pool := (w.pool.checkout (w.isUsable cfg) (r.key cfg)).pool } r attempt
        (w.pool.checkout (w.isUsable cfg) (r.key cfg)).selected
        (w.pool.checkout (w.isUsable cfg) (r.key cfg)).stale
      exact ⟨hnow, fun released => ⟨released, hpool ▸ .checkout _ _, fun _ => rfl⟩⟩
    · exact .same rfl rfl

lemma attemptFailed_shifts (attempt : ℕ) (e : BridgeError) :
    w.Shifts cfg false (attemptFailed cfg w r attempt e).1 := by
  rw [attemptFailed]
  split_ifs
  · exact .same rfl rfl
  · exact startAttempt_shifts (attempt + 1)
  · exact .same rfl rfl

lemma startRequest_shifts : w.Shifts cfg false (startRequest cfg w r).1 := by
  rw [startRequest]
  split_ifs
  · exact .same rfl rfl
  · exact startAttempt_shifts 1

lemma forwardMessage_eq (cfg : Config) (w : World) (r : Request) (o : Opened) (a : Arrival) :
    (forwardMessage cfg w r o a).1.pool = w.pool ∧
      (forwardMessage cfg w r o a).1.now = w.now := by
  rw [forwardMessage]
  split <;> exact ⟨rfl, rfl⟩

lemma requestMove_shifts {pc : RequestPc} {p : World × RequestPc} {new : List Task}
    (h : RequestMove cfg w r pc outcome p new) : w.Shifts cfg false p.1 := by
  cases h with
  | staleClosed => exact .same (closeStale_eq w r _ _ _).1 (closeStale_eq w r _ _ _).2
  | contextClosed | attemptClosed => exact attemptFailed_shifts _ _
  | backedOff => exact startAttempt_shifts _
  | headSent => exact .same (forwardMessage_eq cfg w r _ _).1 (forwardMessage_eq cfg w r _ _).2
  | resumed =>
      rw [resume]
      split <;> exact .same rfl rfl
  | @next o a rest _ =>
      obtain ⟨hpool, hnow⟩ := forwardMessage_eq cfg (w.take o.conn (.received r a) rest) r o a
      exact .same hpool hnow
  | _ => exact .same rfl rfl

/-- A release puts its connection into a pool that keeps something. -/
lemma putBack_shifts (hmax : 0 < cfg.settings.websocketPoolMaxIdle) :
    w.Shifts cfg true (putBack cfg w r o).1 := by
  set idle : Idle := ⟨o.conn, r.key cfg, w.now⟩ with hidle
  have hpool : (putBack cfg w r o).1.pool
      = (w.pool.insert cfg.settings.websocketPoolMaxIdle idle).2 := by
    rw [putBack]
    dsimp only
    cases (w.pool.insert cfg.settings.websocketPoolMaxIdle idle).1 <;> rfl
  have hnow : (putBack cfg w r o).1.now = w.now := by
    rw [putBack]
    dsimp only
    cases (w.pool.insert cfg.settings.websocketPoolMaxIdle idle).1 <;> rfl
  exact ⟨hnow, fun released => ⟨released ++ [idle], hpool ▸ .insert rfl hmax, fun h => nomatch h⟩⟩

lemma releaseOrClose_eq (cfg : Config) (w : World) (o : Opened) :
    (releaseOrClose cfg w o).1.pool = w.pool ∧ (releaseOrClose cfg w o).1.now = w.now := by
  rw [releaseOrClose]
  split_ifs <;> exact ⟨rfl, rfl⟩

lemma discardPending_eq (cfg : Config) (w : World) (o : Opened) (a : Arrival) :
    (discardPending cfg w o a).1.pool = w.pool ∧ (discardPending cfg w o a).1.now = w.now := by
  rw [discardPending]
  split <;> exact ⟨rfl, rfl⟩

lemma closeEvicted_eq (w : World) (stale : List Idle) :
    (closeEvicted w stale).1.pool = w.pool ∧ (closeEvicted w stale).1.now = w.now := by
  cases stale <;> exact ⟨rfl, rfl⟩

lemma closeIdle_eq (w : World) (rest : List Idle) :
    (closeIdle w rest).1.pool = w.pool ∧ (closeIdle w rest).1.now = w.now := by
  cases rest <;> exact ⟨rfl, rfl⟩

/-- A background task puts its connection into the pool: its probe times out. -/
def Task.putsBack : Task → Outcome → Bool
  | .background _ _ .probing, .raised .timeout => true
  | _, _ => false

/-- The step puts a connection into the pool. -/
def Action.putsBack (s : State) : Action → Bool
  | .run i outcome => s.tasks[i]?.any fun task => task.putsBack outcome
  | _ => false

lemma backgroundMove_shifts {pc : BackgroundPc} {p : World × BackgroundPc}
    (h : BackgroundMove cfg w r o pc outcome p)
    (hput : (Task.background r o pc).putsBack outcome = true →
      0 < cfg.settings.websocketPoolMaxIdle) :
    w.Shifts cfg ((Task.background r o pc).putsBack outcome) p.1 := by
  cases h with
  | unacknowledged | acknowledged =>
      exact .same (releaseOrClose_eq cfg w o).1 (releaseOrClose_eq cfg w o).2
  | @pending a rest _ =>
      obtain ⟨hpool, hnow⟩ := discardPending_eq cfg (w.take o.conn (.drained a) rest) o a
      exact .same hpool hnow
  | silent => exact putBack_shifts (hput rfl)
  | evicted => exact .same (closeEvicted_eq w _).1 (closeEvicted_eq w _).2
  | _ => exact .same rfl rfl

/-- **A step of a task** changes the pool as the methods of the pool do. -/
theorem taskMove_shifts {task task' : Task} {new : List Task}
    (h : TaskMove cfg w task outcome (w', task') new)
    (hput : task.putsBack outcome = true → 0 < cfg.settings.websocketPoolMaxIdle) :
    w.Shifts cfg (task.putsBack outcome) w' := by
  cases h with
  | request hmove => exact (requestMove_shifts hmove).weaken
  | background hmove => exact backgroundMove_shifts hmove hput
  | closer hmove =>
      cases hmove with
      | @closed rest _ _ => exact .same (closeIdle_eq w rest).1 (closeIdle_eq w rest).2
      | cancelled => exact .same rfl rfl

lemma startClose_shifts (cfg : Config) (w : World) : w.Shifts cfg false (startClose w).1 := by
  rw [startClose]
  dsimp only
  obtain ⟨hpool, hnow⟩ := closeIdle_eq { w with pool := w.pool.clear.2 } w.pool.clear.1
  exact ⟨hnow, fun released => ⟨released, hpool ▸ .clear, fun _ => rfl⟩⟩

/-- **A step of the bridge** changes the pool as its methods do, and the clock goes
on. -/
theorem bridgeStep_shifts {s t : State} {a : Action} (h : bridgeStep cfg s a = some t)
    (hput : a.putsBack s = true → 0 < cfg.settings.websocketPoolMaxIdle) :
    s.world.now ≤ t.world.now ∧ ∀ released, ∃ released',
      Pool.Change cfg.settings.websocketPoolMaxIdle s.world.now s.world.pool released
          t.world.pool released' ∧ (a.putsBack s = false → released' = released) := by
  have hof : ∀ {back w'}, s.world.Shifts cfg back w' → back = a.putsBack s →
      s.world.now ≤ w'.now ∧ ∀ released, ∃ released',
        Pool.Change cfg.settings.websocketPoolMaxIdle s.world.now s.world.pool released
          w'.pool released' ∧ (a.putsBack s = false → released' = released) := by
    rintro back w' hshifts rfl
    exact ⟨hshifts.now_eq.ge, hshifts.change⟩
  cases bridgeStep_move h with
  | arrive _ | setSocket _ => exact hof (.same rfl rfl) rfl
  | tick hpos =>
      exact ⟨le_add_of_nonneg_right hpos.le, fun released => ⟨released, .stay, fun _ => rfl⟩⟩
  | request _ => exact hof startRequest_shifts rfl
  | aclose => exact hof (startClose_shifts cfg s.world) rfl
  | @run i outcome task task' w' new hi hmove =>
      have hback : task.putsBack outcome = (Action.run i outcome).putsBack s := by
        simp [Action.putsBack, hi]
      exact hof (taskMove_shifts hmove (hback ▸ hput)) hback

/-! ### The order of the pool -/

/-- A task that probes does so for a pool that keeps something. -/
def Task.Retains (cfg : Config) : Task → Prop
  | .background _ _ .probing => 0 < cfg.settings.websocketPoolMaxIdle
  | _ => True

lemma retains_releaseOrClose (cfg : Config) (w : World) (r : Request) (o : Opened) :
    (Task.background r o (releaseOrClose cfg w o).2).Retains cfg := by
  rw [releaseOrClose]
  split_ifs with _ hretained
  · trivial
  · trivial
  · trivial
  · exact Nat.pos_of_ne_zero fun hzero => hretained (Or.inl hzero)

lemma backgroundMove_retains {pc : BackgroundPc} {p : World × BackgroundPc}
    (h : BackgroundMove cfg w r o pc outcome p) :
    (Task.background r o p.2).Retains cfg := by
  cases h with
  | unacknowledged | acknowledged => exact retains_releaseOrClose cfg w r o
  | pending =>
      rw [discardPending]
      split <;> trivial
  | silent =>
      rw [putBack]
      dsimp only
      cases (w.pool.insert cfg.settings.websocketPoolMaxIdle ⟨o.conn, r.key cfg, w.now⟩).1 <;>
        trivial
  | @evicted stale _ _ => cases stale <;> trivial
  | _ => trivial

lemma requestMove_retains {pc : RequestPc} {p : World × RequestPc} {new : List Task}
    (h : RequestMove cfg w r pc outcome p new) : ∀ task ∈ new, task.Retains cfg := by
  cases h with
  | resumed =>
      rw [resume]
      split <;> simp [Task.Retains]
  | _ => simp

lemma taskMove_retains {task task' : Task} {new : List Task}
    (h : TaskMove cfg w task outcome (w', task') new) :
    ∀ t ∈ task' :: new, t.Retains cfg := by
  refine List.forall_mem_cons.mpr ?_
  cases h with
  | request hmove => exact ⟨trivial, requestMove_retains hmove⟩
  | background hmove => exact ⟨backgroundMove_retains hmove, by simp⟩
  | closer _ => exact ⟨trivial, by simp⟩

lemma bridgeStep_retains {s t : State} {a : Action} (h : bridgeStep cfg s a = some t)
    (hs : ∀ task ∈ s.tasks, task.Retains cfg) : ∀ task ∈ t.tasks, task.Retains cfg := by
  have hadd : ∀ {new : Task}, new.Retains cfg → ∀ task ∈ s.tasks ++ [new], task.Retains cfg :=
    fun hnew => List.forall_mem_append.mpr ⟨hs, List.forall_mem_singleton.mpr hnew⟩
  cases bridgeStep_move h with
  | arrive _ | setSocket _ | tick _ => exact hs
  | request _ | aclose => exact hadd trivial
  | run hi hmove =>
      obtain ⟨htask', hnew⟩ := List.forall_mem_cons.mp (taskMove_retains hmove)
      refine List.forall_mem_append.mpr ⟨fun task htask => ?_, hnew⟩
      rcases List.mem_or_eq_of_mem_set htask with hold | rfl
      · exact hs task hold
      · exact htask'

/-- What probes keeps something, and the pool is in order for some list of what was
released. -/
structure State.InOrder (cfg : Config) (s : State) : Prop where
  retains : ∀ task ∈ s.tasks, task.Retains cfg
  ordered : ∃ released,
    s.world.pool.Ordered cfg.settings.websocketPoolMaxIdle s.world.now released

lemma Task.Retains.pos {task : Task} (h : task.Retains cfg)
    (hback : task.putsBack outcome = true) : 0 < cfg.settings.websocketPoolMaxIdle := by
  rw [Task.putsBack.eq_def] at hback
  split at hback
  · exact h
  · cases hback

lemma State.InOrder.step {s t : State} {a : Action} (hs : s.InOrder cfg)
    (h : bridgeStep cfg s a = some t) : t.InOrder cfg := by
  obtain ⟨hretains, released, hordered⟩ := hs
  have hput : a.putsBack s = true → 0 < cfg.settings.websocketPoolMaxIdle := by
    intro hback
    cases a with
    | run i outcome =>
        cases hi : s.tasks[i]? with
        | none => simp [Action.putsBack, hi] at hback
        | some task =>
            have hback' : task.putsBack outcome = true := by
              simpa [Action.putsBack, hi] using hback
            exact (hretains task (List.mem_of_getElem? hi)).pos hback'
    | _ => cases hback
  obtain ⟨hnow, hchange⟩ := bridgeStep_shifts h hput
  obtain ⟨released', hchange, -⟩ := hchange released
  exact ⟨bridgeStep_retains h hretains, released', (hordered.change hchange).later hnow⟩

/-- **In every run of the bridge** the dictionary of its pool keeps its shape. -/
theorem represents_of_reachable {s : State} (h : (bridge cfg).Reachable s) :
    s.world.pool.Represents cfg.settings.websocketPoolMaxIdle := by
  obtain ⟨l, hpath⟩ := h
  have hinit : (bridge cfg).init.InOrder cfg :=
    ⟨by simp [bridge], [], Pool.Ordered.empty _ _⟩
  obtain ⟨-, released, hordered⟩ := hpath.invariant_of_steps (I := State.InOrder cfg)
    (P := fun _ _ => True) (fun _ _ _ hs _ hstep => hs.step hstep) hinit (by simp)
  exact hordered.represents

/-! ### The tasks make calls -/

/-- What the pool sees of the bridge. -/
def World.ofPool (w : World) : WebSocketBridgePool.State :=
  WebSocketBridgePool.alone w.pool (fun c => (w.conns.cell c).socket) w.now

open WebSocketBridgePool

/-- Where a task stands, and the call of the pool that it is in or has made: a
background task in `release`, a request in `_checkout`, a closer in `aclose`. -/
inductive Follows (cfg : Config) : Task → CallPc → Prop
  | probing {r : Request} {o : Opened} :
      Follows cfg (.background r o .probing) (.probing o.conn (r.key cfg))
  | evicting {r : Request} {o : Opened} {stale : List Idle} :
      Follows cfg (.background r o (.evicting stale)) (.closing none stale)
  | closing {r : Request} {o : Opened} :
      Follows cfg (.background r o .closing) (.closing none [])
  | released {r : Request} {o : Opened} :
      Follows cfg (.background r o .finished) (.returned none)
  | lost {r : Request} {o : Opened} {raised : Raised} :
      Follows cfg (.background r o .finished) (.raised raised)
  | checkingOut {r : Request} {attempt : ℕ} {selected : Option Idle} {stale : List Idle} :
      Follows cfg (.request r (.checkingOut attempt selected stale)) (.closing selected stale)
  | hit {r : Request} {attempt : ℕ} {entry : Idle} :
      Follows cfg (.request r (.sending ⟨entry.conn, attempt, true⟩ false))
        (.returned (some entry))
  | miss {r : Request} {attempt : ℕ} :
      Follows cfg (.request r (.connecting attempt)) (.returned none)
  | abandoned {r : Request} :
      Follows cfg (.request r (.finished (some .cancelled))) (.raised .cancelled)
  | emptying {rest : List Idle} : Follows cfg (.closer (.closing rest)) (.closing none rest)
  | emptied : Follows cfg (.closer .finished) (.returned none)
  | stopped : Follows cfg (.closer .finished) (.raised .cancelled)

/-- The call waits for a connection. -/
def WebSocketBridgePool.CallPc.Suspended : CallPc → Prop
  | .probing .. | .closing .. => True
  | _ => False

/-- A background task with a pool calls `release`. -/
lemma releaseOrClose_follows (w : World) (r : Request) (o : Opened)
    (henabled : cfg.settings.websocketPoolEnabled = true) :
    Follows cfg (.background r o (releaseOrClose cfg w o).2)
      (startRelease cfg w.ofPool o.conn (some (r.key cfg))).2.pc := by
  rw [releaseOrClose, startRelease, if_neg (by simp [henabled])]
  by_cases hretained : cfg.settings.websocketPoolMaxIdle = 0 ∨
      cfg.settings.websocketPoolIdleTimeoutSeconds ≤ 0
  · rw [if_pos hretained, if_pos hretained]
    exact .closing
  · have hsocket : w.ofPool.sockets o.conn = (w.conns.cell o.conn).socket := rfl
    rw [if_neg hretained, if_neg hretained, hsocket]
    by_cases hopen : websocketAppearsOpen cfg.runtime (w.conns.cell o.conn).socket = false
    · rw [if_pos hopen, if_pos hopen]
      exact .closing
    · rw [if_neg hopen, if_neg hopen]
      exact .probing

lemma closeStale_follows (w : World) (r : Request) (attempt : ℕ) (selected : Option Idle)
    (stale : List Idle) (exited : List ℕ) :
    Follows cfg (.request r (closeStale w r attempt selected stale).2)
      (closeNext exited selected stale).pc := by
  cases stale with
  | cons entry stale => exact .checkingOut
  | nil =>
      cases selected with
      | some entry => exact .hit
      | none => exact .miss

/-- An attempt with a pool calls `_checkout`. -/
lemma startAttempt_follows {request : List (PyStr × Json)} (w : World) (r : Request) (attempt : ℕ)
    (henabled : cfg.settings.websocketPoolEnabled = true)
    (hbody : buildResponseCreateRequest cfg.runtime.depth r.body = .ok request) :
    Follows cfg (.request r (startAttempt cfg w r attempt).2)
        (withLock cfg w.ofPool (.taking (r.key cfg) w.now)).2.pc ∧
      (withLock cfg w.ofPool (.taking (r.key cfg) w.now)).1.pool
        = (startAttempt cfg w r attempt).1.pool := by
  rw [startAttempt, hbody, withLock_of_free rfl]
  dsimp only
  rw [if_pos henabled, (closeStale_eq _ _ _ _ _).1]
  exact ⟨closeStale_follows _ _ _ _ _ _, rfl⟩

lemma closeEvicted_follows (w : World) (exited : List ℕ) (stale : List Idle) :
    Follows cfg (.background r o (closeEvicted w stale).2) (closeNext exited none stale).pc := by
  cases stale with
  | nil => exact .released
  | cons entry stale => exact .evicting

lemma closeIdle_follows (w : World) (exited : List ℕ) (rest : List Idle) :
    Follows cfg (.closer (closeIdle w rest).2) (closeNext exited none rest).pc := by
  cases rest with
  | nil => exact .emptied
  | cons entry rest => exact .emptying

/-- A closer calls `aclose`. -/
lemma startClose_follows (w : World) :
    Follows cfg (.closer (startClose w).2) (withLock cfg w.ofPool .clearing).2.pc ∧
      (withLock cfg w.ofPool .clearing).1.pool = (startClose w).1.pool := by
  rw [startClose, withLock_of_free rfl]
  dsimp only
  rw [(closeIdle_eq _ _).1]
  exact ⟨closeIdle_follows _ _ _, rfl⟩

lemma BackgroundMove.follows {pc : BackgroundPc} {p : World × BackgroundPc} {call : Call}
    (h : BackgroundMove cfg w r o pc outcome p) (hcall : Follows cfg (.background r o pc) call.pc)
    (hsuspended : call.pc.Suspended) :
    ∃ q, Goes cfg w.ofPool call q ∧ Follows cfg (.background r o p.2) q.2.pc ∧
      q.1.pool = p.1.pool := by
  obtain ⟨callPc, exited⟩ := call
  cases hcall with
  | probing =>
      cases h with
      | @pending a rest hunread =>
          -- a pending message: the connection is discarded
          refine ⟨_, .probed o.conn (r.key cfg) exited (.message a.message), ?_⟩
          rw [received, discardPending]
          cases websocketMessageToText a.message >>= eventType cfg.runtime.depth with
          | ok event => exact ⟨.closing, rfl⟩
          | error e => exact ⟨.lost, rfl⟩
      | silent hwaits =>
          refine ⟨_, .probed o.conn (r.key cfg) exited (.raised .timeout), ?_⟩
          rw [received, withLock_of_free rfl, putBack]
          dsimp only
          rw [(closeEvicted_eq _ _).1]
          exact ⟨closeEvicted_follows _ _ _, rfl⟩
      | @probeFailed e hwaits he =>
          refine ⟨_, .probed o.conn (r.key cfg) exited (.raised e), ?_⟩
          cases e with
          | timeout => exact absurd rfl he
          | _ => exact ⟨.closing, rfl⟩
      | cancelled _ =>
          exact ⟨_, .probed o.conn (r.key cfg) exited .cancelled, .lost, rfl⟩
  | @evicting _ _ stale =>
      cases h with
      | evicted _ =>
          exact ⟨_, .closed none stale exited, closeEvicted_follows _ _ _,
            (closeEvicted_eq _ _).1.symm⟩
      | cancelled _ => exact ⟨_, .cancelled none stale exited, .lost, rfl⟩
  | closing =>
      cases h with
      | closed _ => exact ⟨_, .closed none [] exited, .released, rfl⟩
      | cancelled _ => exact ⟨_, .cancelled none [] exited, .lost, rfl⟩
  | released | lost => exact absurd hsuspended id

lemma RequestMove.follows {pc : RequestPc} {p : World × RequestPc} {new : List Task}
    {call : Call} (h : RequestMove cfg w r pc outcome p new)
    (hcall : Follows cfg (.request r pc) call.pc) (hsuspended : call.pc.Suspended) :
    ∃ q, Goes cfg w.ofPool call q ∧ Follows cfg (.request r p.2) q.2.pc ∧
      q.1.pool = p.1.pool := by
  obtain ⟨callPc, exited⟩ := call
  cases hcall with
  | @checkingOut _ attempt selected stale =>
      cases h with
      | staleClosed _ =>
          exact ⟨_, .closed selected stale exited, closeStale_follows _ _ _ _ _ _,
            (closeStale_eq _ _ _ _ _).1.symm⟩
      | cancelled _ => exact ⟨_, .cancelled selected stale exited, .abandoned, rfl⟩
  | hit | miss | abandoned => exact absurd hsuspended id

lemma CloserMove.follows {pc : CloserPc} {p : World × CloserPc} {call : Call}
    (h : CloserMove w pc outcome p) (hcall : Follows cfg (.closer pc) call.pc)
    (hsuspended : call.pc.Suspended) :
    ∃ q, Goes cfg w.ofPool call q ∧ Follows cfg (.closer p.2) q.2.pc ∧
      q.1.pool = p.1.pool := by
  obtain ⟨callPc, exited⟩ := call
  cases hcall with
  | @emptying rest =>
      cases h with
      | closed _ =>
          exact ⟨_, .closed none rest exited, closeIdle_follows _ _ _,
            (closeIdle_eq _ _).1.symm⟩
      | cancelled => exact ⟨_, .cancelled none rest exited, .stopped, rfl⟩
  | emptied | stopped => exact absurd hsuspended id

/-- **A task that is in a call of its pool** goes on as the call does, and does the
same to the pool. -/
theorem TaskMove.follows {task : Task} {p : World × Task} {new : List Task} {call : Call}
    (h : TaskMove cfg w task outcome p new) (hcall : Follows cfg task call.pc)
    (hsuspended : call.pc.Suspended) :
    ∃ q, Goes cfg w.ofPool call q ∧ Follows cfg p.2 q.2.pc ∧ q.1.pool = p.1.pool := by
  cases h with
  | request hmove => exact hmove.follows hcall hsuspended
  | background hmove => exact hmove.follows hcall hsuspended
  | closer hmove => exact hmove.follows hcall hsuspended

end CodexResetProxy
