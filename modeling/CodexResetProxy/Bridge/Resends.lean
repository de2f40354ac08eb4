import CodexResetProxy.Library.Trials
import CodexResetProxy.Bridge.Delivery

/-!
How often, and on which connections, a request is sent, while other requests,
background tasks and `aclose` go on.

* `World.trace`: what was done for a request on a connection; a request tries
  connections in the sense of `Trials.Tried`.
* `World.Aside`: the parts of the source that do nothing for a request.
* `RequestPc.Tries`: what a request has tried, where it is suspended;
  `requestMove_tries`: its own steps keep this, `RequestPc.Tries.frame`: and so do
  the steps of the others, which are aside (`taskMove_aside`).
* `State.Trying`, `State.Trying.step`: all requests together.
* `resent_of_reachable`: what holds in every reachable state.
-/

namespace CodexResetProxy

open Custody Transition Protocol PyStr Trials

/-! ### What is done for a request -/

/-- The request that an event is about. -/
def Event.request? : Event → Option Request
  | .send (.create r) => some r
  | .sent (.create r) => some r
  | .received r _ => some r
  | .yielded r _ => some r
  | .resumed r => some r
  | _ => none

/-- What was done for a request on a connection. -/
def World.trace (w : World) (r : Request) (c : ℕ) : List Event :=
  (w.conns.cell c).log.filter fun e => e.request? = some r

/-- A connection is given up. -/
def World.Exited (w : World) (c : ℕ) : Prop := .exited ∈ (w.conns.cell c).log

/-- The request was given to `send`, perhaps written, and nothing was received. -/
def Unanswered (r : Request) (trace : List Event) : Prop :=
  trace = [.send (.create r)] ∨ trace = [.send (.create r), .sent (.create r)]

/-- The connections on which a request was tried. -/
abbrev World.Tried (w : World) (r : Request) : List ℕ → Option ℕ → Prop :=
  Trials.Tried (.send (.create r)) (Unanswered r) w.Exited (w.trace r)

variable {cfg : Config} {w w' w'' : World} {r r' : Request} {o : Opened} {outcome : Outcome}
  {c : ℕ} {e : Event} {k : ℕ}

lemma Unanswered.count {trace : List Event} (h : Unanswered r trace) :
    trace.count (.send (.create r)) = 1 := by
  rcases h with rfl | rfl <;> simp

lemma Unanswered.not_received {trace : List Event} (h : Unanswered r trace) (a : Arrival) :
    .received r a ∉ trace := by
  rcases h with rfl | rfl <;> simp

namespace World

lemma trace_did (he : e.request? = some r) :
    (w.did c e).trace r = Function.update (w.trace r) c (w.trace r c ++ [e]) := by
  funext d
  by_cases hd : d = c
  · subst hd
    simp [World.trace, World.did, Conn.did, he]
  · simp [World.trace, World.did, Store.set_cell_of_ne _ _ hd, Function.update_of_ne hd]

lemma Exited.did {d : ℕ} (h : w.Exited d) (c : ℕ) (e : Event) : (w.did c e).Exited d := by
  by_cases hd : d = c
  · subst hd
    simpa [World.Exited, World.did, Conn.did] using Or.inl h
  · simpa [World.Exited, World.did, Store.set_cell_of_ne _ _ hd] using h

lemma exited_exit (w : World) (c : ℕ) : (w.exit c).Exited c := by
  simp [World.Exited, World.exit, World.did, Conn.did]

lemma log_take (w : World) (c : ℕ) (e : Event) (rest : List Arrival) (d : ℕ) :
    ((w.take c e rest).conns.cell d).log = ((w.did c e).conns.cell d).log := by
  by_cases hd : d = c
  · subst hd
    simp [World.take, World.did]
  · simp [World.take, World.did, Store.set_cell_of_ne _ _ hd]

/-! ### Steps that do nothing for a request -/

/-- Nothing is done for the request. -/
structure Aside (r : Request) (w w' : World) : Prop where
  trace : w'.trace r = w.trace r
  exited : ∀ c, w.Exited c → w'.Exited c

namespace Aside

lemma refl (r : Request) (w : World) : Aside r w w := ⟨rfl, fun _ => id⟩

lemma trans (h : Aside r w w') (h' : Aside r w' w'') : Aside r w w'' :=
  ⟨h'.trace.trans h.trace, fun c hc => h'.exited c (h.exited c hc)⟩

/-- Only what was done matters. -/
lemma of_log (h : ∀ c, (w'.conns.cell c).log = (w.conns.cell c).log) : Aside r w w' := by
  refine ⟨funext fun c => ?_, fun c hc => ?_⟩
  · rw [World.trace, World.trace, h]
  · rwa [World.Exited, h]

/-- The pool does not matter. -/
lemma of_pool {pool : Pool} (h : Aside r { w with pool := pool } w') : Aside r w w' :=
  ⟨h.trace, h.exited⟩

lemma did (he : e.request? ≠ some r) : Aside r w (w.did c e) := by
  refine ⟨funext fun d => ?_, fun d hd => hd.did c e⟩
  by_cases hd : d = c
  · subst hd
    simp [World.trace, World.did, Conn.did, he]
  · simp [World.trace, World.did, Store.set_cell_of_ne _ _ hd]

lemma exit : Aside r w (w.exit c) := did (by simp [Event.request?])

lemma take {rest : List Arrival} (he : e.request? ≠ some r) : Aside r w (w.take c e rest) :=
  (did he).trans (of_log (log_take w c e rest))

/-- On a new connection nothing has been done. -/
lemma push (hblank : w.conns.cell w.conns.next = .blank) :
    Aside r w { w with conns := w.conns.push r'.connect } := by
  refine of_log fun c => ?_
  by_cases hc : c = w.conns.next
  · subst hc
    simp [hblank, Request.connect]
  · simp [Store.push_cell_of_ne _ _ hc]

end Aside

/-! ### The steps of a try -/

namespace Tried

variable {earlier : List ℕ} {current : Option ℕ}

lemma aside (h : w.Tried r earlier current) (haside : Aside r w w') :
    w'.Tried r earlier current := by
  rw [World.Tried, haside.trace]
  exact h.frame haside.exited

/-- The request is given to `send`. -/
lemma send (h : w.Tried r earlier none) (hc : ¬w.Exited c) :
    (w.did c (.send (.create r))).Tried r earlier (some c) := by
  rw [World.Tried, trace_did rfl]
  exact (h.begin hc).frame fun d hd => hd.did c _

lemma did (h : w.Tried r earlier (some c)) (he : e.request? = some r)
    (hne : e ≠ .send (.create r)) : (w.did c e).Tried r earlier (some c) := by
  rw [World.Tried, trace_did he]
  exact (h.goesOn hne).frame fun d hd => hd.did c e

lemma take (h : w.Tried r earlier (some c)) (he : e.request? = some r)
    (hne : e ≠ .send (.create r)) (rest : List Arrival) :
    (w.take c e rest).Tried r earlier (some c) :=
  World.Tried.aside (World.Tried.did h he hne) (.of_log (log_take w c e rest))

/-- The connection is given up after a failure. -/
lemma exit (h : w.Tried r earlier (some c)) (hnone : Unanswered r (w.trace r c)) :
    (w.exit c).Tried r (earlier ++ [c]) none := by
  refine Trials.Tried.fails (World.Tried.aside h .exit) ?_ (exited_exit w c)
  rwa [Aside.exit.trace]

end Tried

end World

open World

/-! ### One request -/

variable (cfg) in
/-- The tries of a request before attempt `k`, all failed. -/
def World.TriedBefore (w : World) (r : Request) (k : ℕ) : Prop :=
  k ≤ cfg.settings.upstreamMaxAttempts ∧ ∃ earlier, w.Tried r earlier none ∧ earlier.length < k

variable (cfg) in
/-- The request is tried on its connection. -/
def World.Trying (w : World) (r : Request) (o : Opened) (done : List Event) : Prop :=
  o.attempts ≤ cfg.settings.upstreamMaxAttempts ∧ w.trace r o.conn = done ∧
    ∃ earlier, w.Tried r earlier (some o.conn) ∧ earlier.length < o.attempts

variable (cfg) in
/-- All tries of a request, of which the last may not have failed. -/
def World.TriedInAll (w : World) (r : Request) (current : Option ℕ) : Prop :=
  ∃ earlier, w.Tried r earlier current ∧
    (earlier ++ current.toList).length ≤ cfg.settings.upstreamMaxAttempts

variable (cfg) in
/-- What a request has tried, where it is suspended. -/
def RequestPc.Tries (w : World) (r : Request) : RequestPc → Prop
  | .checkingOut k _ _ => w.TriedBefore cfg r k
  | .connecting k => w.TriedBefore cfg r k
  | .connectFailed k _ => w.TriedBefore cfg r k
  | .sending o false => w.Trying cfg r o [.send (.create r)]
  | .sending o true => w.Trying cfg r o [.send (.create r), .sent (.create r)]
  | .awaitingFirst o => w.Trying cfg r o [.send (.create r), .sent (.create r)]
  | .closingAttempt k _ => k ≤ cfg.settings.upstreamMaxAttempts ∧
      ∃ earlier, w.Tried r earlier none ∧ earlier.length ≤ k
  | .backingOff k => w.TriedBefore cfg r (k + 1)
  | .head o _ => w.TriedInAll cfg r (some o.conn)
  | .suspended o _ => w.TriedInAll cfg r (some o.conn)
  | .receiving o => w.TriedInAll cfg r (some o.conn)
  | .closing _ => ∃ current, w.TriedInAll cfg r current
  | .finished _ => ∃ current, w.TriedInAll cfg r current

section Own

lemma World.TriedBefore.aside (h : w.TriedBefore cfg r k) (haside : Aside r w w') :
    w'.TriedBefore cfg r k := by
  obtain ⟨hk, earlier, htried, hlt⟩ := h
  exact ⟨hk, earlier, htried.aside haside, hlt⟩

lemma World.TriedBefore.inAll (h : w.TriedBefore cfg r k) : w.TriedInAll cfg r none := by
  obtain ⟨hk, earlier, htried, hlt⟩ := h
  exact ⟨earlier, htried, by simp; omega⟩

lemma World.Trying.aside {done : List Event} (h : w.Trying cfg r o done)
    (haside : Aside r w w') : w'.Trying cfg r o done := by
  obtain ⟨hk, hdone, earlier, htried, hlt⟩ := h
  exact ⟨hk, by rw [haside.trace, hdone], earlier, htried.aside haside, hlt⟩

lemma World.Trying.inAll {done : List Event} (h : w.Trying cfg r o done) :
    w.TriedInAll cfg r (some o.conn) := by
  obtain ⟨hk, _, earlier, htried, hlt⟩ := h
  exact ⟨earlier, htried, by simp; omega⟩

/-- The attempt fails without an answer. -/
lemma World.Trying.exit {done : List Event} {e : BridgeError} (h : w.Trying cfg r o done)
    (hnone : Unanswered r done) :
    (RequestPc.closingAttempt o.attempts e).Tries cfg (w.exit o.conn) r := by
  obtain ⟨hk, hdone, earlier, htried, hlt⟩ := h
  exact ⟨hk, _, htried.exit (hdone ▸ hnone), by simp; omega⟩

lemma World.TriedInAll.aside {current : Option ℕ} (h : w.TriedInAll cfg r current)
    (haside : Aside r w w') : w'.TriedInAll cfg r current := by
  obtain ⟨earlier, htried, hle⟩ := h
  exact ⟨earlier, htried.aside haside, hle⟩

lemma World.TriedInAll.did (h : w.TriedInAll cfg r (some c)) (he : e.request? = some r)
    (hne : e ≠ .send (.create r)) : (w.did c e).TriedInAll cfg r (some c) := by
  obtain ⟨earlier, htried, hle⟩ := h
  exact ⟨earlier, htried.did he hne, hle⟩

lemma World.TriedInAll.take (h : w.TriedInAll cfg r (some c)) (he : e.request? = some r)
    (hne : e ≠ .send (.create r)) (rest : List Arrival) :
    (w.take c e rest).TriedInAll cfg r (some c) := by
  obtain ⟨earlier, htried, hle⟩ := h
  exact ⟨earlier, htried.take he hne rest, hle⟩

lemma sendCreate_tries (h : w.TriedBefore cfg r o.attempts) (hc : ¬w.Exited o.conn) :
    (sendCreate w r o).2.Tries cfg (sendCreate w r o).1 r := by
  obtain ⟨hk, earlier, htried, hlt⟩ := h
  have hnew : o.conn ∉ earlier := fun hmem => hc (htried.ended o.conn hmem).2
  have htrace : (w.did o.conn (.send (.create r))).trace r o.conn = [.send (.create r)] := by
    rw [World.trace_did rfl, Function.update_self, htried.untried o.conn hnew (by simp),
      List.nil_append]
  exact ⟨hk, htrace, earlier, htried.send hc, hlt⟩

lemma closeStale_tries {selected : Option Idle} (h : w.TriedBefore cfg r k)
    (hselected : ∀ entry, selected = some entry → ¬w.Exited entry.conn) (stale : List Idle) :
    (closeStale w r k selected stale).2.Tries cfg (closeStale w r k selected stale).1 r := by
  cases stale with
  | cons entry stale => exact h.aside .exit
  | nil =>
      cases selected with
      | none => exact h
      | some entry => exact sendCreate_tries (o := ⟨entry.conn, k, true⟩) h (hselected entry rfl)

lemma startAttempt_tries (h : w.TriedBefore cfg r k)
    (hidle : ∀ entry ∈ w.pool.entries, ¬w.Exited entry.conn) :
    (startAttempt cfg w r k).2.Tries cfg (startAttempt cfg w r k).1 r := by
  rw [startAttempt]
  split
  · exact ⟨none, h.inAll⟩
  · exact ⟨none, h.inAll⟩
  · split_ifs
    · dsimp only
      refine closeStale_tries ?_ (fun entry hentry => ?_) _
      · exact h.aside (.of_log fun _ => rfl)
      · have hperm := Pool.checkout_perm w.pool (w.isUsable cfg) (r.key cfg)
        exact hidle entry (hperm.mem_iff.mpr (by simp [hentry]))
    · exact h

lemma attemptFailed_tries (hk : k ≤ cfg.settings.upstreamMaxAttempts)
    (h : ∃ earlier, w.Tried r earlier none ∧ earlier.length ≤ k)
    (hidle : ∀ entry ∈ w.pool.entries, ¬w.Exited entry.conn) (e : BridgeError) :
    (attemptFailed cfg w r k e).2.Tries cfg (attemptFailed cfg w r k e).1 r := by
  obtain ⟨earlier, htried, hle⟩ := h
  rw [attemptFailed]
  split_ifs with hlt
  · exact ⟨hlt, earlier, htried, by omega⟩
  · exact startAttempt_tries ⟨hlt, earlier, htried, by omega⟩ hidle
  · exact ⟨none, earlier, htried, by simpa using hle.trans hk⟩

lemma startRequest_tries (htrace : ∀ c, w.trace r c = [])
    (hidle : ∀ entry ∈ w.pool.entries, ¬w.Exited entry.conn) :
    (startRequest cfg w r).2.Tries cfg (startRequest cfg w r).1 r := by
  have htried : w.Tried r [] none := .nothing htrace
  rw [startRequest]
  split_ifs with hmax
  · exact ⟨none, [], htried, Nat.zero_le _⟩
  · exact startAttempt_tries ⟨Nat.pos_of_ne_zero hmax, [], htried, Nat.one_pos⟩ hidle

lemma forwardMessage_tries (h : w.TriedInAll cfg r (some o.conn)) (a : Arrival) :
    (forwardMessage cfg w r o a).2.Tries cfg (forwardMessage cfg w r o a).1 r := by
  rw [forwardMessage]
  split
  · exact h.did rfl (by simp)
  · exact ⟨_, h.aside .exit⟩

/-- A request is ended by what it raises, wherever it is. -/
lemma RequestPc.Tries.inAll {pc : RequestPc} (h : pc.Tries cfg w r) :
    ∃ current, w.TriedInAll cfg r current := by
  cases pc with
  | checkingOut k selected stale => exact ⟨_, World.TriedBefore.inAll h⟩
  | connecting k => exact ⟨_, World.TriedBefore.inAll h⟩
  | connectFailed k e => exact ⟨_, World.TriedBefore.inAll h⟩
  | sending o written => cases written <;> exact ⟨_, World.Trying.inAll h⟩
  | awaitingFirst o => exact ⟨_, World.Trying.inAll h⟩
  | closingAttempt k e =>
      obtain ⟨hk, earlier, htried, hle⟩ := h
      exact ⟨none, earlier, htried, by simpa using hle.trans hk⟩
  | backingOff k => exact ⟨_, World.TriedBefore.inAll h⟩
  | head o a => exact ⟨_, h⟩
  | suspended o a => exact ⟨_, h⟩
  | receiving o => exact ⟨_, h⟩
  | closing raised => exact h
  | finished raised => exact h

/-- **A step of a request** keeps what it has tried. The connections that it holds,
and the idle ones, have not been given up. -/
theorem requestMove_tries {pc : RequestPc} {p : World × RequestPc} {new : List Task}
    (h : RequestMove cfg w r pc outcome p new)
    (hblank : w.conns.cell w.conns.next = .blank) (hholds : ∀ c ∈ pc.holds, ¬w.Exited c)
    (hidle : ∀ entry ∈ w.pool.entries, ¬w.Exited entry.conn) (hpc : pc.Tries cfg w r) :
    p.2.Tries cfg p.1 r := by
  cases h with
  | @staleClosed k selected stale =>
      refine closeStale_tries hpc (fun entry hentry => hholds entry.conn ?_) _
      simp [RequestPc.holds, hentry]
  | @connected k =>
      refine sendCreate_tries (hpc.aside (.push hblank)) ?_
      simp [World.Exited, Request.connect, Conn.blank]
  | refused => exact hpc
  -- the attempt has failed before it sent anything
  | @contextClosed k e =>
      obtain ⟨hk, earlier, htried, hlt⟩ := hpc
      exact attemptFailed_tries hk ⟨earlier, htried, hlt.le⟩ hidle e
  -- the message is written: the connection is the one that is being tried
  | @wrote o =>
      obtain ⟨hk, hdone, earlier, htried, hlt⟩ := hpc
      refine ⟨hk, ?_, earlier, htried.did rfl (by simp), hlt⟩
      rw [World.trace_did rfl, Function.update_self, hdone, List.singleton_append]
  | sent => exact hpc.aside (.did (by simp [Event.request?]))
  | @sendFailed o written =>
      cases written with
      | false => exact hpc.exit (.inl rfl)
      | true => exact hpc.exit (.inr rfl)
  | first hunread => exact (World.Trying.inAll hpc).take rfl (by simp) _
  -- no message has come, so the attempt may be made again
  | firstFailed => exact hpc.exit (.inr rfl)
  | firstUncaught | headFailed => exact hpc.inAll
  | attemptClosed =>
      obtain ⟨hk, htried⟩ := hpc
      exact attemptFailed_tries hk htried hidle _
  | backedOff => exact startAttempt_tries hpc hidle
  -- from here on nothing is sent again
  | headSent => exact forwardMessage_tries hpc _
  | @resumed o a =>
      have hresumed := hpc.did rfl (e := .resumed r) (by simp)
      rw [resume]
      split
      · exact ⟨_, hresumed⟩
      · exact hresumed.aside (.did (by simp [Event.request?]))
  | yieldBroken | recvBroken => exact ⟨_, hpc.aside .exit⟩
  | next hunread => exact forwardMessage_tries (hpc.take rfl (by simp) _) _
  | closed => exact hpc
  | cancelled => exact hpc.inAll

end Own

/-! ### The other tasks -/

section Others

variable (hr : r' ≠ r)

include hr

lemma closeStale_aside (attempt : ℕ) (selected : Option Idle) (stale : List Idle) :
    Aside r w (closeStale w r' attempt selected stale).1 := by
  cases stale with
  | cons entry stale => exact .exit
  | nil =>
      cases selected with
      | none => exact .refl r w
      | some entry => exact .did (by simpa [Event.request?] using hr)

lemma startAttempt_aside (attempt : ℕ) : Aside r w (startAttempt cfg w r' attempt).1 := by
  rw [startAttempt]
  split
  · exact .refl r w
  · exact .refl r w
  · split_ifs
    · exact .of_pool (closeStale_aside hr attempt _ _)
    · exact .refl r w

lemma attemptFailed_aside (attempt : ℕ) (e : BridgeError) :
    Aside r w (attemptFailed cfg w r' attempt e).1 := by
  rw [attemptFailed]
  split_ifs
  · exact .refl r w
  · exact startAttempt_aside hr (attempt + 1)
  · exact .refl r w

lemma startRequest_aside : Aside r w (startRequest cfg w r').1 := by
  rw [startRequest]
  split_ifs
  · exact .refl r w
  · exact startAttempt_aside hr 1

lemma forwardMessage_aside (o : Opened) (a : Arrival) :
    Aside r w (forwardMessage cfg w r' o a).1 := by
  rw [forwardMessage]
  split
  · exact .did (by simpa [Event.request?] using hr)
  · exact .exit

lemma resume_aside (o : Opened) (a : Arrival) : Aside r w (resume cfg w r' o a).1 := by
  have hresumed : Aside r w (w.did o.conn (.resumed r')) :=
    .did (by simpa [Event.request?] using hr)
  rw [resume]
  split
  · exact hresumed
  · exact hresumed.trans (.did (by simp [Event.request?]))

lemma requestMove_aside {pc : RequestPc} {p : World × RequestPc} {new : List Task}
    (h : RequestMove cfg w r' pc outcome p new)
    (hblank : w.conns.cell w.conns.next = .blank) : Aside r w p.1 := by
  cases h with
  | staleClosed => exact closeStale_aside hr _ _ _
  | connected => exact (Aside.push hblank).trans (.did (by simpa [Event.request?] using hr))
  | contextClosed | attemptClosed => exact attemptFailed_aside hr _ _
  | wrote => exact .did (by simpa [Event.request?] using hr)
  | sent => exact .did (by simp [Event.request?])
  | sendFailed | firstFailed | yieldBroken | recvBroken => exact .exit
  | first hunread => exact .take (by simpa [Event.request?] using hr)
  | backedOff => exact startAttempt_aside hr _
  | headSent => exact forwardMessage_aside hr _ _
  | resumed => exact resume_aside hr _ _
  | @next o a rest hunread =>
      have htaken : Aside r w (w.take o.conn (.received r' a) rest) :=
        .take (by simpa [Event.request?] using hr)
      exact htaken.trans (forwardMessage_aside hr o a)
  | refused | firstUncaught | headFailed | closed | cancelled => exact .refl r w

end Others

lemma releaseOrClose_aside : Aside r w (releaseOrClose cfg w o).1 := by
  rw [releaseOrClose]
  split_ifs
  · exact .exit
  · exact .exit
  · exact .exit
  · exact .did (by simp [Event.request?])

lemma closeEvicted_aside (stale : List Idle) : Aside r w (closeEvicted w stale).1 := by
  cases stale with
  | nil => exact .refl r w
  | cons entry rest => exact .exit

lemma putBack_aside : Aside r w (putBack cfg w r' o).1 := by
  rw [putBack]
  have hpooled : Aside r w (w.did o.conn .pooled) := .did (by simp [Event.request?])
  exact hpooled.trans (.of_pool (closeEvicted_aside _))

lemma discardPending_aside (a : Arrival) : Aside r w (discardPending cfg w o a).1 := by
  rw [discardPending]
  split
  · exact .exit
  · exact .refl r w

lemma closeIdle_aside (rest : List Idle) : Aside r w (closeIdle w rest).1 := by
  cases rest with
  | nil => exact .refl r w
  | cons entry rest => exact .exit

lemma startClose_aside : Aside r w (startClose w).1 := .of_pool (closeIdle_aside _)

lemma backgroundMove_aside {pc : BackgroundPc} {p : World × BackgroundPc}
    (h : BackgroundMove cfg w r' o pc outcome p) : Aside r w p.1 := by
  cases h with
  | started | wrote => exact .did (by simp [Event.request?])
  | unacknowledged | acknowledged => exact releaseOrClose_aside
  | sendFailed | probeFailed => exact .exit
  | @pending a rest hunread =>
      have htaken : Aside r w (w.take o.conn (.drained a) rest) :=
        .take (by simp [Event.request?])
      exact htaken.trans (discardPending_aside a)
  | silent => exact putBack_aside
  | evicted => exact closeEvicted_aside _
  | closed | cancelled => exact .refl r w

/-- **A step of a task** does nothing for another request. -/
theorem taskMove_aside {task task' : Task} {new : List Task}
    (h : TaskMove cfg w task outcome (w', task') new) (hr : task.reader ≠ some r)
    (hblank : w.conns.cell w.conns.next = .blank) : Aside r w w' := by
  cases h with
  | @request r' pc _ p _ h => exact requestMove_aside (fun heq => hr (congrArg some heq)) h hblank
  | background h => exact backgroundMove_aside h
  | closer h =>
      cases h with
      | closed => exact closeIdle_aside _
      | cancelled => exact .refl r w

/-- **What another task does** changes nothing that a request has tried. -/
theorem RequestPc.Tries.frame {pc : RequestPc} (h : pc.Tries cfg w r) (haside : Aside r w w') :
    pc.Tries cfg w' r := by
  cases pc with
  | checkingOut k selected stale => exact World.TriedBefore.aside h haside
  | connecting k => exact World.TriedBefore.aside h haside
  | connectFailed k e => exact World.TriedBefore.aside h haside
  | sending o written => cases written <;> exact World.Trying.aside h haside
  | awaitingFirst o => exact World.Trying.aside h haside
  | closingAttempt k e =>
      obtain ⟨hk, earlier, htried, hle⟩ := h
      exact ⟨hk, earlier, htried.aside haside, hle⟩
  | backingOff k => exact World.TriedBefore.aside h haside
  | head o a => exact World.TriedInAll.aside h haside
  | suspended o a => exact World.TriedInAll.aside h haside
  | receiving o => exact World.TriedInAll.aside h haside
  | closing raised =>
      obtain ⟨current, h⟩ := h
      exact ⟨current, h.aside haside⟩
  | finished raised =>
      obtain ⟨current, h⟩ := h
      exact ⟨current, h.aside haside⟩

/-! ### The system -/

variable (cfg) in
/-- Every request has tried what it has where it is suspended, and nothing was done
for a request that never came in. -/
structure State.Trying (s : State) : Prop where
  tries : ∀ (i : ℕ) (r : Request) (pc : RequestPc), s.tasks[i]? = some (.request r pc) →
    pc.Tries cfg s.world r
  strangers : ∀ r : Request, (∀ (i : ℕ) (pc : RequestPc), s.tasks[i]? ≠ some (.request r pc)) →
    ∀ c, s.world.trace r c = []

section Trying

variable {s s' : State} {a : Action}

/-- No request is concerned. -/
lemma State.Trying.of_aside (hs : s.Trying cfg)
    (htasks : ∀ (i : ℕ) (r : Request) (pc : RequestPc),
      s'.tasks[i]? = some (.request r pc) ↔ s.tasks[i]? = some (.request r pc))
    (haside : ∀ r, Aside r s.world s'.world) : s'.Trying cfg := by
  refine ⟨fun i r pc hi => ?_, fun r hr c => ?_⟩
  · exact (hs.tries i r pc ((htasks i r pc).mp hi)).frame (haside r)
  · rw [(haside r).trace]
    exact hs.strangers r (fun i pc hi => hr i pc ((htasks i r pc).mpr hi)) c

/-- Idle connections and those that a task holds are not given up. -/
lemma SingleFlight.not_exited (hs : SingleFlight s) :
    (∀ entry ∈ s.world.pool.entries, ¬s.world.Exited entry.conn) ∧
      ∀ task ∈ s.tasks, ∀ c ∈ task.holds, ¬s.world.Exited c := by
  refine ⟨fun entry hentry hexited => ?_, fun task htask c hc hexited => ?_⟩
  · exact hs.exited _ hexited (List.mem_append_right _ (List.mem_map_of_mem hentry))
  · exact hs.exited c hexited (List.mem_append_left _ (List.mem_flatMap.mpr ⟨task, htask, hc⟩))

/-- A request comes in. -/
lemma State.Trying.request (hs : s.Trying cfg) (hserving : s.Serving cfg) (hflight : SingleFlight s)
    {r : Request} (hr : r.id = s.tasks.length) :
    State.Trying cfg ⟨(startRequest cfg s.world r).1,
      s.tasks ++ [.request r (startRequest cfg s.world r).2]⟩ := by
  have hnew : ∀ (i : ℕ) (pc : RequestPc), s.tasks[i]? ≠ some (.request r pc) := by
    intro i pc hi
    obtain ⟨hlt, _⟩ := List.getElem?_eq_some_iff.mp hi
    exact absurd (hserving.numbered i r pc hi) (by omega)
  have hold : ∀ {i : ℕ} {r' : Request} {pc : RequestPc}, s.tasks[i]? = some (.request r' pc) →
      r ≠ r' := fun hi heq => hnew _ _ (heq ▸ hi)
  refine ⟨fun i r' pc hi => ?_, fun r' hr' c => ?_⟩
  · rcases getElem?_concat_eq_some hi with hi | ⟨rfl, heq⟩
    · exact (hs.tries i r' pc hi).frame (startRequest_aside (hold hi))
    · cases heq
      exact startRequest_tries (hs.strangers r hnew) hflight.not_exited.1
  · have hne : r ≠ r' := by
      rintro rfl
      exact hr' s.tasks.length _ List.getElem?_concat_length
    rw [(startRequest_aside hne).trace]
    refine hs.strangers r' (fun i pc hi => hr' i pc ?_) c
    obtain ⟨hlt, _⟩ := List.getElem?_eq_some_iff.mp hi
    rwa [List.getElem?_append_left hlt]

/-- A task goes on. -/
lemma State.Trying.run (hs : s.Trying cfg) (hserving : s.Serving cfg) (hflight : SingleFlight s)
    (hblank : s.world.conns.cell s.world.conns.next = .blank) {i : ℕ} {task task' : Task}
    {new : List Task} (hi : s.tasks[i]? = some task)
    (h : TaskMove cfg s.world task outcome (w', task') new) :
    State.Trying cfg ⟨w', s.tasks.set i task' ++ new⟩ := by
  obtain ⟨hidle, hholds⟩ := hflight.not_exited
  refine ⟨fun j r pc hj => ?_, fun r hr c => ?_⟩
  · rcases getElem?_set_append_eq_some hj with ⟨rfl, heq⟩ | ⟨hne, hj⟩ | hmem
    · obtain ⟨pc', rfl, hmove⟩ := taskMove_request h heq.symm
      exact requestMove_tries hmove hblank (hholds _ (List.mem_of_getElem? hi)) hidle
        (hs.tries i r pc' hi)
    · refine (hs.tries j r pc hj).frame (taskMove_aside h (fun hr => hne ?_) hblank)
      obtain ⟨pc', rfl⟩ := Task.eq_request_of_reader hr
      rw [← hserving.numbered i r pc' hi, ← hserving.numbered j r pc hj]
    · exact absurd hmem (taskMove_new h)
  · have hold := not_request_of_run h hi hr
    rw [(taskMove_aside h (fun hread => ?_) hblank).trace]
    · exact hs.strangers r hold c
    · obtain ⟨pc, rfl⟩ := Task.eq_request_of_reader hread
      exact hold i pc hi

/-- **What requests have tried** is kept by every step of the bridge. -/
theorem State.Trying.step (hs : s.Trying cfg) (hreach : (bridge cfg).Reachable s)
    (h : bridgeStep cfg s a = some s') : s'.Trying cfg := by
  have hserving := serving_of_reachable hreach
  have hflight := singleFlight_of_reachable hreach
  have hblank : s.world.conns.cell s.world.conns.next = .blank :=
    (kept_of_reachable hreach).blank _ le_rfl
  cases bridgeStep_move h with
  | @arrive c message _ =>
      refine hs.of_aside (fun _ _ _ => Iff.rfl) fun r => .of_log fun d => ?_
      by_cases hd : d = c
      · subst hd
        simp [Conn.arrive]
      · simp [Store.set_cell_of_ne _ _ hd]
  | @setSocket c socket _ =>
      refine hs.of_aside (fun _ _ _ => Iff.rfl) fun r => .of_log fun d => ?_
      by_cases hd : d = c
      · subst hd
        simp
      · simp [Store.set_cell_of_ne _ _ hd]
  | tick _ => exact hs.of_aside (fun _ _ _ => Iff.rfl) fun r => .of_log fun _ => rfl
  | request hr => exact hs.request hserving hflight (by rw [hr])
  | aclose =>
      refine hs.of_aside (fun i r pc => ⟨fun hi => ?_, fun hi => ?_⟩) fun r => startClose_aside
      · rcases getElem?_concat_eq_some hi with hi | ⟨_, heq⟩
        · exact hi
        · cases heq
      · obtain ⟨hlt, _⟩ := List.getElem?_eq_some_iff.mp hi
        rwa [List.getElem?_append_left hlt]
  | run hi hmove => exact hs.run hserving hflight hblank hi hmove

end Trying

/-! ### Runs -/

/-- On which connections the requests were sent, in a state `s`.

* A request was given to `send` once on each of the connections `earlier` and
  `current`, and on no other: `upstream_max_attempts` times at most.
* The `earlier` connections are exited: nothing was received on them for the request,
  all it received came on the last one, after it was sent there.
* A request that did not come in was not sent. -/
structure Resent (cfg : Config) (s : State) : Prop where
  tried : ∀ (i : ℕ) (r : Request) (pc : RequestPc), s.tasks[i]? = some (.request r pc) →
    ∃ (earlier : List ℕ) (current : Option ℕ),
      (earlier ++ current.toList).Nodup ∧
      (earlier ++ current.toList).length ≤ cfg.settings.upstreamMaxAttempts ∧
      (∀ c, (s.world.conns.cell c).log.count (.send (.create r))
        = if c ∈ earlier ++ current.toList then 1 else 0) ∧
      (∀ c ∈ earlier, s.world.Exited c) ∧
      ∀ c a, .received r a ∈ (s.world.conns.cell c).log →
        current = some c ∧ ∃ rest, s.world.trace r c = .send (.create r) :: rest
  strangers : ∀ r : Request, (∀ (i : ℕ) (pc : RequestPc), s.tasks[i]? ≠ some (.request r pc)) →
    ∀ c, .send (.create r) ∉ (s.world.conns.cell c).log

lemma mem_trace (he : e.request? = some r) :
    e ∈ w.trace r c ↔ e ∈ (w.conns.cell c).log := by
  simp [World.trace, he]

lemma count_trace (he : e.request? = some r) :
    (w.trace r c).count e = (w.conns.cell c).log.count e :=
  List.count_filter (by simp [he])

variable {s : State} {l : List (State × Action)}

theorem trying_of_reachable (h : (bridge cfg).Reachable s) : s.Trying cfg := by
  obtain ⟨l, h⟩ := h
  generalize hinit : (bridge cfg).init = s₀ at h
  induction h with
  | nil =>
      subst hinit
      exact ⟨fun i r pc hi => absurd hi (by simp [bridge]), fun r _ c => rfl⟩
  | @snoc s t k a hprev hstep ih =>
      subst hinit
      exact ih.step ⟨k, hprev⟩ hstep

/-- **Requests are sent again** only on another connection, after the one before was
exited without a message for them, and not too often: in every run of the bridge. -/
theorem resent_of_reachable (h : (bridge cfg).Reachable s) : Resent cfg s := by
  have htrying := trying_of_reachable h
  refine ⟨fun i r pc hi => ?_, fun r hr c hc => ?_⟩
  · obtain ⟨current, earlier, htried, hle⟩ := (htrying.tries i r pc hi).inAll
    refine ⟨earlier, current, htried.nodup, hle, fun c => ?_, fun c hc => (htried.ended c hc).2,
      fun c a hreceived => ?_⟩
    · rw [← htried.count_start (fun _ => Unanswered.count) c]
      exact (count_trace rfl).symm
    · have hcurrent := htried.current_of_mem (fun _ hl => hl.not_received a)
        ((mem_trace rfl).mpr hreceived)
      obtain ⟨rest, htrace, _⟩ := htried.going c hcurrent
      exact ⟨hcurrent, rest, htrace⟩
  · have hmem := (mem_trace (r := r) rfl).mpr hc
    rw [htrying.strangers r hr c] at hmem
    exact List.not_mem_nil hmem

/-- The first request of the sample. -/
def sampleFirst : Request := { sampleSecond with id := 0 }

/-- No message comes on the first connection, and the request is sent on another. -/
def sampleRetry : List Action :=
  [sampleRequest, .run 0 .returned, .run 0 .wrote, .run 0 .returned, .run 0 (.raised .timeout),
    .run 0 .returned, .run 0 .returned, .run 0 .wrote, .run 0 .returned,
    .arrive 1 sampleCompleted, .run 0 .returned]

/-- Sending again, when a request is sent on two connections. -/
theorem resent_sampleRetry :
    ∃ s, (bridge sampleConfig).exec (bridge sampleConfig).init sampleRetry = some s ∧
      s.world.trace sampleFirst 0 = [.send (.create sampleFirst), .sent (.create sampleFirst)] ∧
      s.world.trace sampleFirst 1 = [.send (.create sampleFirst), .sent (.create sampleFirst),
        .received sampleFirst ⟨sampleCompleted, 3⟩] ∧
      Resent sampleConfig s := by
  have hrun : (((bridge sampleConfig).exec (bridge sampleConfig).init sampleRetry).map fun s =>
      (s.world.trace sampleFirst 0, s.world.trace sampleFirst 1))
      = some ([.send (.create sampleFirst), .sent (.create sampleFirst)],
        [.send (.create sampleFirst), .sent (.create sampleFirst),
          .received sampleFirst ⟨sampleCompleted, 3⟩]) := by
    decide +kernel
  obtain ⟨s, hs, htraces⟩ := Option.map_eq_some_iff.mp hrun
  obtain ⟨hzero, hone⟩ := Prod.mk.inj htraces
  exact ⟨s, hs, hzero, hone, resent_of_reachable (System.Reachable.of_exec hs)⟩

end CodexResetProxy
