import CodexResetProxy.Library.Amortized
import CodexResetProxy.Bridge.Ownership

/-!
The bridge comes to rest: how many steps its tasks can take, and where they stop.

* `Task.budget`: the steps a task has left, if it receives no further message; an
  attempt costs a request seven of them.
* `State.budget`: the steps of all tasks, of closing what is in the pool, and those
  that the waiting messages allow. Each step of a task takes one of them
  (`taskMove_budget`).
* `steps_le_of_path`: a run has no more steps of tasks than its requests and its
  messages pay for.
* `canGoOn`: no task is stuck, not even one that is never cancelled.
* `quiesces_of_reachable`: so the bridge can always be brought to rest, and at rest
  nothing but the pool holds a connection.
-/

namespace CodexResetProxy

open Custody Transition

/-! ### What is left to do -/

/-- The attempts that may follow an attempt. -/
def Config.attemptsLeft (cfg : Config) (attempt : ℕ) : ℕ :=
  cfg.settings.upstreamMaxAttempts - attempt

/-- The steps of a request. -/
def RequestPc.budget (cfg : Config) : RequestPc → ℕ
  | .checkingOut attempt _ stale => 7 * cfg.attemptsLeft attempt + 6 + stale.length
  | .connecting attempt => 7 * cfg.attemptsLeft attempt + 5
  | .connectFailed attempt _ => 7 * cfg.attemptsLeft attempt + 1
  | .sending o false => 7 * cfg.attemptsLeft o.attempts + 4
  | .sending o true => 7 * cfg.attemptsLeft o.attempts + 3
  | .awaitingFirst o => 7 * cfg.attemptsLeft o.attempts + 2
  | .closingAttempt attempt _ => 7 * cfg.attemptsLeft attempt + 1
  | .backingOff attempt => 7 * cfg.attemptsLeft (attempt + 1) + 6
  | .head _ _ => 7
  | .suspended _ _ => 6
  | .receiving _ => 2
  | .closing _ => 1
  | .finished _ => 0

/-- The steps of a background task. -/
def BackgroundPc.budget : BackgroundPc → ℕ
  | .scheduled _ => 5
  | .acknowledging _ false => 4
  | .acknowledging _ true => 3
  | .probing => 2
  | .evicting stale => 1 + stale.length
  | .closing => 1
  | .finished => 0

/-- The steps of a closer. -/
def CloserPc.budget : CloserPc → ℕ
  | .closing rest => 1 + rest.length
  | .finished => 0

/-- The steps of a task. -/
def Task.budget (cfg : Config) : Task → ℕ
  | .request _ pc => pc.budget cfg
  | .background _ _ pc => pc.budget
  | .closer pc => pc.budget

/-- The messages that wait. -/
def World.waiting (w : World) : ℕ :=
  ∑ c ∈ Finset.range w.conns.next, (w.conns.cell c).unread.length

/-- The steps that the pool and the waiting messages allow: an entry is closed in
one, and a message takes a request as far as its background task. -/
def World.budget (w : World) : ℕ := w.pool.entries.length + 6 * w.waiting

/-- The steps that can be taken before something comes in. -/
def State.budget (cfg : Config) (s : State) : ℕ :=
  (s.tasks.map (Task.budget cfg)).sum + s.world.budget

variable {cfg : Config} {w w' : World} {r : Request} {o : Opened} {outcome : Outcome}

/-! ### The world -/

namespace World

variable {c : ℕ}

lemma waiting_set (hc : c < w.conns.next) (x : Conn) :
    (∑ d ∈ Finset.range w.conns.next, ((w.conns.set c x).cell d).unread.length)
      + (w.conns.cell c).unread.length = w.waiting + x.unread.length := by
  have hmem : c ∈ Finset.range w.conns.next := Finset.mem_range.mpr hc
  have hothers : ∑ d ∈ (Finset.range w.conns.next).erase c,
        ((w.conns.set c x).cell d).unread.length
      = ∑ d ∈ (Finset.range w.conns.next).erase c, (w.conns.cell d).unread.length := by
    refine Finset.sum_congr rfl fun d hd => ?_
    rw [Store.set_cell_of_ne _ _ (Finset.ne_of_mem_erase hd)]
  rw [waiting, ← Finset.add_sum_erase _ _ hmem, ← Finset.add_sum_erase _ _ hmem, hothers,
    Store.set_cell_self]
  omega

@[simp] lemma waiting_did (w : World) (c : ℕ) (e : Event) : (w.did c e).waiting = w.waiting := by
  refine Finset.sum_congr rfl fun d _ => ?_
  by_cases hd : d = c
  · subst hd
    simp [World.did, Conn.did]
  · simp [World.did, Store.set_cell_of_ne _ _ hd]

@[simp] lemma budget_did (w : World) (c : ℕ) (e : Event) : (w.did c e).budget = w.budget := by
  rw [World.budget, waiting_did]
  rfl

@[simp] lemma budget_exit (w : World) (c : ℕ) : (w.exit c).budget = w.budget :=
  budget_did w c .exited

lemma budget_push (w : World) (r : Request) :
    World.budget { w with conns := w.conns.push r.connect } = w.budget := by
  have hwaiting : World.waiting { w with conns := w.conns.push r.connect } = w.waiting := by
    rw [waiting, waiting, Store.push_next, Finset.sum_range_succ, Store.push_cell_self]
    have hcells : ∑ d ∈ Finset.range w.conns.next, ((w.conns.push r.connect).cell d).unread.length
        = ∑ d ∈ Finset.range w.conns.next, (w.conns.cell d).unread.length := by
      refine Finset.sum_congr rfl fun d hd => ?_
      rw [Store.push_cell_of_ne _ _ (Finset.mem_range.mp hd).ne]
    rw [hcells]
    rfl
  rw [budget, budget, hwaiting]

/-- A message that is taken does not wait any more. -/
lemma budget_take {e : Event} {a : Arrival} {rest : List Arrival} (hc : c < w.conns.next)
    (hunread : (w.conns.cell c).unread = a :: rest) :
    (w.take c e rest).budget + 6 = w.budget := by
  let x : Conn := { (w.conns.cell c).did e with unread := rest }
  have hset : (w.take c e rest).waiting + (w.conns.cell c).unread.length
      = w.waiting + rest.length := waiting_set hc x
  have hwaiting : (w.take c e rest).waiting + 1 = w.waiting := by
    rw [hunread, List.length_cons] at hset
    omega
  rw [budget, budget, ← hwaiting]
  show w.pool.entries.length + _ + 6 = _
  omega

end World

/-! ### Tasks -/

lemma closeStale_budget (cfg : Config) (w : World) (r : Request) (attempt : ℕ)
    (selected : Option Idle) (stale : List Idle) :
    (closeStale w r attempt selected stale).2.budget cfg
        + (closeStale w r attempt selected stale).1.budget
      ≤ 7 * cfg.attemptsLeft attempt + 5 + stale.length + w.budget := by
  cases stale with
  | cons entry stale =>
      simp only [closeStale, RequestPc.budget, World.budget_exit, List.length_cons]
      omega
  | nil =>
      cases selected with
      | none => simp [closeStale, RequestPc.budget]
      | some entry =>
          simp only [closeStale, sendCreate, RequestPc.budget, World.budget_did]
          omega

lemma startAttempt_budget (cfg : Config) (w : World) (r : Request) (attempt : ℕ) :
    (startAttempt cfg w r attempt).2.budget cfg + (startAttempt cfg w r attempt).1.budget
      ≤ 7 * cfg.attemptsLeft attempt + 5 + w.budget := by
  rw [startAttempt]
  split
  · simp [RequestPc.budget]
  · simp [RequestPc.budget]
  · split_ifs
    · have hlen := (Pool.checkout_perm w.pool (w.isUsable cfg) (r.key cfg)).length_eq
      generalize w.pool.checkout (w.isUsable cfg) (r.key cfg) = out at hlen ⊢
      have hclose := closeStale_budget cfg { w with pool := out.pool } r attempt
        out.selected out.stale
      have hworld : World.budget { w with pool := out.pool } + out.stale.length ≤ w.budget := by
        simp only [List.length_append] at hlen
        show out.pool.entries.length + 6 * w.waiting + _ ≤ w.pool.entries.length + 6 * w.waiting
        omega
      dsimp only
      omega
    · simp [RequestPc.budget]

lemma attemptFailed_budget (cfg : Config) (w : World) (r : Request) (attempt : ℕ)
    (e : BridgeError) :
    (attemptFailed cfg w r attempt e).2.budget cfg + (attemptFailed cfg w r attempt e).1.budget
      ≤ 7 * cfg.attemptsLeft attempt + w.budget := by
  rw [attemptFailed]
  split_ifs with hlt hback
  · simp only [RequestPc.budget, Config.attemptsLeft]
    omega
  · have hstart := startAttempt_budget cfg w r (attempt + 1)
    simp only [Config.attemptsLeft] at hstart ⊢
    omega
  · simp [RequestPc.budget]

lemma startRequest_budget (cfg : Config) (w : World) (r : Request) :
    (startRequest cfg w r).2.budget cfg + (startRequest cfg w r).1.budget
      ≤ 7 * cfg.settings.upstreamMaxAttempts + w.budget := by
  rw [startRequest]
  split_ifs with hzero
  · simp [RequestPc.budget]
  · have hstart := startAttempt_budget cfg w r 1
    simp only [Config.attemptsLeft] at hstart
    omega

lemma forwardMessage_budget (cfg : Config) (w : World) (r : Request) (o : Opened) (a : Arrival) :
    (forwardMessage cfg w r o a).2.budget cfg + (forwardMessage cfg w r o a).1.budget
      ≤ 6 + w.budget := by
  rw [forwardMessage]
  split
  · simp [RequestPc.budget]
  · simp only [RequestPc.budget, World.budget_exit]
    omega

lemma resume_budget (cfg : Config) (w : World) (r : Request) (o : Opened) (a : Arrival) :
    (resume cfg w r o a).2.1.budget cfg + ((resume cfg w r o a).2.2.map (Task.budget cfg)).sum
      + (resume cfg w r o a).1.budget ≤ 5 + w.budget := by
  rw [resume]
  split <;> simp [RequestPc.budget, Task.budget, BackgroundPc.budget]

lemma requestMove_budget {pc : RequestPc} {p : World × RequestPc} {new : List Task}
    (h : RequestMove cfg w r pc outcome p new) (hlt : ∀ c ∈ pc.holds, c < w.conns.next) :
    p.2.budget cfg + (new.map (Task.budget cfg)).sum + p.1.budget < pc.budget cfg + w.budget := by
  cases h with
  -- an attempt that goes on: one stale connection less
  | @staleClosed attempt selected stale _ _ =>
      have hclose := closeStale_budget cfg w r attempt selected stale
      have hpc : (RequestPc.checkingOut attempt selected stale).budget cfg
          = 7 * cfg.attemptsLeft attempt + 6 + stale.length := rfl
      simp only [List.map_nil, List.sum_nil]
      omega
  | @connected attempt =>
      simp only [sendCreate, World.budget_did, World.budget_push, List.map_nil, List.sum_nil,
        RequestPc.budget]
      omega
  -- an attempt that has failed: one attempt less is left
  | @contextClosed attempt e _ _ | @attemptClosed attempt e _ _ =>
      have hfail := attemptFailed_budget cfg w r attempt e
      have hpc : (RequestPc.closingAttempt attempt e).budget cfg
          = 7 * cfg.attemptsLeft attempt + 1 := rfl
      have hpc' : (RequestPc.connectFailed attempt e).budget cfg
          = 7 * cfg.attemptsLeft attempt + 1 := rfl
      simp only [List.map_nil, List.sum_nil]
      omega
  | @first o a rest hunread =>
      have htake := World.budget_take (e := .received r a)
        (hlt _ (List.mem_singleton_self _)) hunread
      simp only [List.map_nil, List.sum_nil, RequestPc.budget]
      omega
  | @backedOff attempt =>
      have hstart := startAttempt_budget cfg w r (attempt + 1)
      have hpc : (RequestPc.backingOff attempt).budget cfg
          = 7 * cfg.attemptsLeft (attempt + 1) + 6 := rfl
      simp only [List.map_nil, List.sum_nil]
      omega
  -- a message is yielded, or the stream is over
  | @headSent o a =>
      have hforward := forwardMessage_budget cfg w r o a
      have hpc : (RequestPc.head o a).budget cfg = 7 := rfl
      simp only [List.map_nil, List.sum_nil]
      omega
  | @resumed o a =>
      have hresume := resume_budget cfg w r o a
      have hpc : (RequestPc.suspended o a).budget cfg = 6 := rfl
      dsimp only
      omega
  | @next o a rest hunread =>
      have htake := World.budget_take (e := .received r a)
        (hlt _ (List.mem_singleton_self _)) hunread
      have hforward := forwardMessage_budget cfg
        (w.take o.conn (.received r a) rest) r o a
      have hpc : (RequestPc.receiving o).budget cfg = 2 := rfl
      simp only [List.map_nil, List.sum_nil]
      omega
  | @sendFailed o written e =>
      cases written <;>
      · simp only [List.map_nil, List.sum_nil, RequestPc.budget, World.budget_exit]
        omega
  | wrote | sent | firstFailed | yieldBroken | recvBroken =>
      simp only [List.map_nil, List.sum_nil, RequestPc.budget, World.budget_exit,
        World.budget_did]
      omega
  | refused | firstUncaught | headFailed | closed =>
      simp only [List.map_nil, List.sum_nil, RequestPc.budget]
      omega
  | cancelled hpc =>
      cases hpc with
      | @sending o written => cases written <;> simp [RequestPc.budget]
      | _ => simp [RequestPc.budget]

lemma releaseOrClose_budget (cfg : Config) (w : World) (o : Opened) :
    (releaseOrClose cfg w o).2.budget + (releaseOrClose cfg w o).1.budget ≤ 2 + w.budget := by
  rw [releaseOrClose]
  split_ifs <;> simp [BackgroundPc.budget]

lemma closeEvicted_budget (w : World) (stale : List Idle) :
    (closeEvicted w stale).2.budget + (closeEvicted w stale).1.budget
      = stale.length + w.budget := by
  cases stale with
  | nil => simp [closeEvicted, BackgroundPc.budget]
  | cons entry rest =>
      simp only [closeEvicted, BackgroundPc.budget, World.budget_exit, List.length_cons]
      omega

lemma putBack_budget (cfg : Config) (w : World) (r : Request) (o : Opened) :
    (putBack cfg w r o).2.budget + (putBack cfg w r o).1.budget = 1 + w.budget := by
  have hlen := (Pool.insert_perm w.pool cfg.settings.websocketPoolMaxIdle
    ⟨o.conn, r.key cfg, w.now⟩).length_eq
  rw [putBack]
  generalize w.pool.insert cfg.settings.websocketPoolMaxIdle ⟨o.conn, r.key cfg, w.now⟩ = out
    at hlen ⊢
  have hevict := closeEvicted_budget { w.did o.conn .pooled with pool := out.2 } out.1
  have hworld : World.budget { w.did o.conn .pooled with pool := out.2 } + out.1.length
      = 1 + w.budget := by
    have hwaiting : World.waiting { w.did o.conn .pooled with pool := out.2 } = w.waiting :=
      World.waiting_did w o.conn .pooled
    simp only [List.length_cons, List.length_append] at hlen
    rw [World.budget, World.budget, hwaiting]
    show out.2.entries.length + _ + _ = _
    omega
  exact hevict.trans (by omega)

lemma discardPending_budget (cfg : Config) (w : World) (o : Opened) (a : Arrival) :
    (discardPending cfg w o a).2.budget + (discardPending cfg w o a).1.budget ≤ 1 + w.budget := by
  rw [discardPending]
  split <;> simp [BackgroundPc.budget]

lemma backgroundMove_budget {pc : BackgroundPc} {p : World × BackgroundPc}
    (h : BackgroundMove cfg w r o pc outcome p) (hlt : ∀ c ∈ pc.holds o, c < w.conns.next) :
    p.2.budget + p.1.budget < pc.budget + w.budget := by
  cases h with
  | unacknowledged | acknowledged =>
      have hrelease := releaseOrClose_budget cfg w o
      refine lt_of_le_of_lt hrelease ?_
      simp [BackgroundPc.budget]
  | @pending a rest hunread =>
      have htake := World.budget_take (e := .drained a)
        (hlt _ (List.mem_singleton_self _)) hunread
      have hdiscard := discardPending_budget cfg (w.take o.conn (.drained a) rest) o a
      have hpc : BackgroundPc.probing.budget = 2 := rfl
      omega
  | silent =>
      have hback := putBack_budget cfg w r o
      have hpc : BackgroundPc.probing.budget = 2 := rfl
      omega
  | @evicted stale =>
      have hevict := closeEvicted_budget w stale
      have hpc : (BackgroundPc.evicting stale).budget = 1 + stale.length := rfl
      omega
  | @sendFailed id written e => cases written <;> simp [BackgroundPc.budget]
  | started | wrote | probeFailed | closed => simp [BackgroundPc.budget]
  | cancelled hpc =>
      cases hpc with
      | @acknowledging id written => cases written <;> simp [BackgroundPc.budget]
      | _ => simp [BackgroundPc.budget]

lemma closeIdle_budget (w : World) (rest : List Idle) :
    (closeIdle w rest).2.budget + (closeIdle w rest).1.budget = rest.length + w.budget := by
  cases rest with
  | nil => simp [closeIdle, CloserPc.budget]
  | cons entry rest =>
      simp only [closeIdle, CloserPc.budget, World.budget_exit, List.length_cons]
      omega

/-- Closing the pool takes no more steps than the pool has entries. -/
lemma startClose_budget (w : World) :
    (startClose w).2.budget + (startClose w).1.budget = w.budget := by
  have hclose := closeIdle_budget { w with pool := w.pool.clear.2 } w.pool.clear.1
  refine Eq.trans hclose ?_
  show w.pool.entries.length + (Pool.empty.entries.length + 6 * w.waiting) = _
  simp [World.budget]

/-- **A step of a task** takes from the budget. -/
theorem taskMove_budget {task task' : Task} {new : List Task}
    (h : TaskMove cfg w task outcome (w', task') new)
    (hlt : ∀ c ∈ task.holds, c < w.conns.next) :
    task'.budget cfg + (new.map (Task.budget cfg)).sum + w'.budget
      < task.budget cfg + w.budget := by
  cases h with
  | request h => exact requestMove_budget h hlt
  | background h => simpa [Task.budget] using backgroundMove_budget h hlt
  | closer h =>
      cases h with
      | @closed rest =>
          have hclose := closeIdle_budget w rest
          have hpc : (CloserPc.closing rest).budget = 1 + rest.length := rfl
          simp only [Task.budget, List.map_nil, List.sum_nil]
          omega
      | cancelled => simp [Task.budget, CloserPc.budget]

/-! ### Runs -/

/-- The steps of tasks. -/
def Action.work : Action → ℕ
  | .run _ _ => 1
  | _ => 0

/-- The steps that something that comes in allows. -/
def Action.credit (cfg : Config) : Action → ℕ
  | .arrive _ _ => 6
  | .request _ _ _ => 7 * cfg.settings.upstreamMaxAttempts
  | _ => 0

variable {s t : State} {a : Action} {l : List (State × Action)}

/-- A connection that is held has been opened. -/
lemma lt_next_of_holds (h : (bridge cfg).Reachable s) {i : ℕ} {task : Task}
    (hi : s.tasks[i]? = some task) : ∀ c ∈ task.holds, c < s.world.conns.next := by
  intro c hc
  have hmem : c ∈ s.holders :=
    List.mem_append_left _ (List.mem_flatMap.mpr ⟨task, List.mem_of_getElem? hi, hc⟩)
  rw [State.holders_eq cfg] at hmem
  obtain ⟨p, hp, rfl⟩ := List.mem_map.mp hmem
  exact ((kept_of_reachable h).held p hp).1

/-- **A step of the bridge** works no more than it takes from the budget. -/
theorem bridgeStep_budget (hreach : (bridge cfg).Reachable s)
    (h : bridgeStep cfg s a = some t) : t.budget cfg + a.work ≤ s.budget cfg + a.credit cfg := by
  cases bridgeStep_move h with
  -- a message that arrives brings its own credit
  | @arrive c message hc =>
      have hset := World.waiting_set hc ((s.world.conns.cell c).arrive message)
      have hwaiting : World.waiting { s.world with
          conns := s.world.conns.set c ((s.world.conns.cell c).arrive message) }
          = s.world.waiting + 1 := by
        simp only [Conn.arrive, List.length_append, List.length_singleton] at hset
        exact Nat.add_right_cancel (hset.trans (by omega))
      simp only [State.budget, World.budget, hwaiting, Action.work, Action.credit]
      omega
  | @setSocket c socket hc =>
      have hset := World.waiting_set hc { s.world.conns.cell c with socket := socket }
      have hwaiting : World.waiting { s.world with
          conns := s.world.conns.set c { s.world.conns.cell c with socket := socket } }
          = s.world.waiting := Nat.add_right_cancel hset
      simp only [State.budget, World.budget, hwaiting, Action.work, Action.credit]
      omega
  | tick _ => exact le_rfl
  -- a task that is started brings the credit for its attempts
  | @request url rawHeaders body r _ =>
      have hstart := startRequest_budget cfg s.world r
      simp only [State.budget, List.map_append, List.sum_append, List.map_cons, List.map_nil,
        List.sum_cons, List.sum_nil, Task.budget, Action.work, Action.credit]
      omega
  | aclose =>
      have hclose := startClose_budget s.world
      simp only [State.budget, List.map_append, List.sum_append, List.map_cons, List.map_nil,
        List.sum_cons, List.sum_nil, Task.budget, Action.work, Action.credit]
      omega
  | @run i outcome task task' w' new hi hmove =>
      have hstep := taskMove_budget hmove (lt_next_of_holds hreach hi)
      obtain ⟨hlt, rfl⟩ := List.getElem?_eq_some_iff.mp hi
      have hbefore := ((List.getElem_cons_eraseIdx_perm hlt).map (Task.budget cfg)).sum_eq
      have hafter := ((List.set_perm_cons_eraseIdx hlt task').map (Task.budget cfg)).sum_eq
      simp only [List.map_cons, List.sum_cons] at hbefore hafter
      simp only [State.budget, List.map_append, List.sum_append, Action.work, Action.credit]
      omega

/-- **The steps of a run**: seven for every attempt that its requests may make, and
six for every message that arrives. -/
theorem steps_le_of_path (h : (bridge cfg).Path (bridge cfg).init l s) :
    s.budget cfg + (l.map fun x => x.2.work).sum ≤ (l.map fun x => x.2.credit cfg).sum := by
  have hbound := h.amortized (fun _ _ _ => bridgeStep_budget) System.Reachable.init
  have hinit : (bridge cfg).init.budget cfg = 0 := rfl
  rwa [hinit, Nat.zero_add] at hbound

/-- The steps of a run in which a response is streamed and the connection released. -/
theorem steps_le_sampleRelease :
    ∃ s l, (bridge sampleConfig).Path (bridge sampleConfig).init l s ∧
      (l.map fun x => x.2.work).sum = 10 ∧
      s.budget sampleConfig + (l.map fun x => x.2.work).sum
        ≤ (l.map fun x => x.2.credit sampleConfig).sum := by
  obtain ⟨s, hs⟩ : ∃ s, (bridge sampleConfig).exec (bridge sampleConfig).init sampleRelease
      = some s := Option.isSome_iff_exists.mp (by decide +kernel)
  have hpath := System.Path.of_exec hs
  exact ⟨s, _, hpath, by decide +kernel, steps_le_of_path hpath⟩

/-! ### Rest -/

/-- The task has ended. -/
def Task.over : Task → Prop
  | .request _ (.finished _) => True
  | .background _ _ .finished => True
  | .closer .finished => True
  | _ => False

/-- All tasks have ended. -/
def State.AtRest (s : State) : Prop := ∀ task ∈ s.tasks, task.over

/-- A task goes on, and is not cancelled. -/
def Action.Works : Action → Prop
  | .run _ outcome => outcome ≠ .cancelled
  | _ => False

/-- Where nothing waits, a `recv` may raise. -/
lemma waits_of_unread_nil {x : Conn} (h : x.unread = []) : x.waits = true := by
  rw [Conn.waits, h]
  rfl

lemma requestStep_progress (cfg : Config) (w : World) (r : Request) (pc : RequestPc)
    (hpc : ¬(Task.request r pc).over) :
    ∃ outcome, outcome ≠ .cancelled ∧ (requestStep cfg w r pc outcome).isSome := by
  cases pc with
  | sending o written =>
      cases written with
      | false => exact ⟨.wrote, by simp, rfl⟩
      | true => exact ⟨.returned, by simp, rfl⟩
  | awaitingFirst o =>
      cases hunread : (w.conns.cell o.conn).unread with
      | nil =>
          refine ⟨.raised .timeout, by simp, ?_⟩
          simp only [requestStep, waits_of_unread_nil hunread, if_true]
          split <;> rfl
      | cons a rest => exact ⟨.returned, by simp, by simp [requestStep, hunread]⟩
  | receiving o =>
      cases hunread : (w.conns.cell o.conn).unread with
      | nil =>
          refine ⟨.raised .timeout, by simp, ?_⟩
          simp [requestStep, waits_of_unread_nil hunread]
      | cons a rest => exact ⟨.returned, by simp, by simp [requestStep, hunread]⟩
  | finished raised => exact absurd trivial hpc
  | _ => exact ⟨.returned, by simp, rfl⟩

lemma backgroundStep_progress (cfg : Config) (w : World) (r : Request) (o : Opened)
    (pc : BackgroundPc) (hpc : ¬(Task.background r o pc).over) :
    ∃ outcome, outcome ≠ .cancelled ∧ (backgroundStep cfg w r o pc outcome).isSome := by
  cases pc with
  | scheduled id =>
      refine ⟨.returned, by simp, ?_⟩
      rw [backgroundStep]
      split_ifs <;> rfl
  | acknowledging id written =>
      cases written with
      | false => exact ⟨.wrote, by simp, rfl⟩
      | true => exact ⟨.returned, by simp, rfl⟩
  | probing =>
      cases hunread : (w.conns.cell o.conn).unread with
      | nil =>
          refine ⟨.raised .timeout, by simp, ?_⟩
          simp [backgroundStep, waits_of_unread_nil hunread]
      | cons a rest => exact ⟨.returned, by simp, by simp [backgroundStep, hunread]⟩
  | finished => exact absurd trivial hpc
  | _ => exact ⟨.returned, by simp, rfl⟩

/-- **No task is stuck**: one that has not ended can go on, without being
cancelled. -/
theorem taskStep_progress (cfg : Config) (w : World) (task : Task) (htask : ¬task.over) :
    ∃ outcome, outcome ≠ .cancelled ∧ (taskStep cfg w task outcome).isSome := by
  cases task with
  | request r pc =>
      obtain ⟨outcome, hne, hsome⟩ := requestStep_progress cfg w r pc htask
      exact ⟨outcome, hne, by simpa [taskStep] using hsome⟩
  | background r o pc =>
      obtain ⟨outcome, hne, hsome⟩ := backgroundStep_progress cfg w r o pc htask
      exact ⟨outcome, hne, by simpa [taskStep] using hsome⟩
  | closer pc =>
      cases pc with
      | closing rest => exact ⟨.returned, by simp, rfl⟩
      | finished => exact absurd trivial htask

/-- While the bridge is not at rest, some task can go on. -/
lemma exists_works (cfg : Config) (hrest : ¬s.AtRest) :
    ∃ a t, a.Works ∧ (bridge cfg).step s a = some t := by
  obtain ⟨task, hmem, hover⟩ : ∃ task ∈ s.tasks, ¬task.over := by
    simpa [State.AtRest] using hrest
  obtain ⟨i, hi⟩ := List.getElem?_of_mem hmem
  obtain ⟨outcome, hne, hsome⟩ := taskStep_progress cfg s.world task hover
  obtain ⟨⟨w', task', new⟩, hstep⟩ := Option.isSome_iff_exists.mp hsome
  refine ⟨.run i outcome, ⟨w', s.tasks.set i task' ++ new⟩, hne, ?_⟩
  show bridgeStep cfg s (.run i outcome) = _
  simp only [bridgeStep, hi, hstep, Option.map_some]

/-- At rest nothing but the pool holds a connection. -/
lemma State.AtRest.holders (h : s.AtRest) : s.holders = s.idle := by
  have hnone : s.tasks.flatMap Task.holds = [] := by
    refine List.flatMap_eq_nil_iff.mpr fun task htask => ?_
    have hover := h task htask
    cases task with
    | request r pc => cases pc <;> first | rfl | exact absurd hover id
    | background r o pc => cases pc <;> first | rfl | exact absurd hover id
    | closer pc => cases pc <;> first | rfl | exact absurd hover id
  rw [State.holders, hnone, List.nil_append]

/-- **The bridge comes to rest.** From every reachable state the tasks can end by
going on, without a cancellation, within the budget; and where no task can go on any
more, all of them have ended and only the pool holds connections. -/
theorem quiesces_of_reachable (h : (bridge cfg).Reachable s) :
    (∃ l t, (bridge cfg).Path s l t ∧ (∀ x ∈ l, x.2.Works) ∧ l.length ≤ s.budget cfg ∧
        t.AtRest) ∧
      ((∀ a : Action, a.Works → bridgeStep cfg s a = none) → s.AtRest ∧ s.holders = s.idle) := by
  constructor
  · refine System.exists_path_to (fun s a t hs ha hstep => ?_)
      (fun s _ hrest => exists_works cfg hrest) h
    cases a with
    | run i outcome =>
        have hstep' : bridgeStep cfg s (.run i outcome) = some t := hstep
        exact Nat.lt_of_succ_le (bridgeStep_budget hs hstep')
    | _ => exact absurd ha id
  · intro hstuck
    have hrest : s.AtRest := by
      by_contra hnot
      obtain ⟨a, t, ha, hstep⟩ := exists_works cfg hnot
      exact absurd (hstuck a ha) (by rw [show bridgeStep cfg s a = some t from hstep]; simp)
    exact ⟨hrest, hrest.holders⟩

/-- A response is being streamed, and can be brought to its end. -/
theorem quiesces_sampleOpening :
    ∃ s, (bridge sampleConfig).exec (bridge sampleConfig).init sampleOpening = some s ∧
      s.holders = [0] ∧
      (∃ l t, (bridge sampleConfig).Path s l t ∧ (∀ x ∈ l, x.2.Works) ∧
        l.length ≤ s.budget sampleConfig ∧ t.AtRest) := by
  have hrun : (((bridge sampleConfig).exec (bridge sampleConfig).init sampleOpening).map
      State.holders) = some [0] := by
    decide +kernel
  obtain ⟨s, hs, hholders⟩ := Option.map_eq_some_iff.mp hrun
  exact ⟨s, hs, hholders, (quiesces_of_reachable (System.Reachable.of_exec hs)).1⟩

end CodexResetProxy
