import CodexResetProxy.Bridge.Moves
import CodexResetProxy.Bridge.Tokens

/-!
Every step of a task is a trade of the tokens it holds and those of the pool.

One lemma for each way to treat a connection (`trade_did`, `trade_exit`,
`trade_take`, `trade_connect`, `trade_abandon`), one for each part of the source
that several steps share, and one for each kind of task; `taskMove_trade` puts
them together.
-/

namespace CodexResetProxy

open Custody Protocol

/-- The store, with the tokens of a task in front of those of the pool. -/
def World.holding (w : World) (tokens : List (ℕ × Token)) : Store Conn × List (ℕ × Token) :=
  (w.conns, tokens ++ w.pool.view)

variable {cfg : Config} {strict : Prop} {spare : Bool → Prop}

/-- Trades of the bridge. -/
abbrev BridgeTrade (cfg : Config) (strict : Prop) (spare : Bool → Prop) :
    Store Conn × List (ℕ × Token) → Store Conn × List (ℕ × Token) → Prop :=
  Trade (discipline cfg strict spare)

/-! ### One connection -/

section Conn

variable {w : World} {c : ℕ} {k : WebSocketPoolKey} {p q : Phase} {e : Event}
  {o : List (ℕ × Token)}

lemma trade_did (hstep : Step cfg k p e q) (htakes : e.takes? = none)
    (hstrict : strict → ∀ r, e = .sent (.create r) → (w.conns.cell c).unread = []) :
    BridgeTrade cfg strict spare (w.holding ((c, ⟨k, p⟩) :: o))
      ((w.did c e).holding ((c, ⟨k, q⟩) :: o)) := by
  refine Trade.write fun hsat => ?_
  obtain ⟨hkey, hrun⟩ : (w.conns.cell c).key cfg = k ∧ Run cfg k (w.conns.cell c).log p := hsat
  have hnext : Run cfg k ((w.conns.cell c).log ++ [e]) q := hrun.snoc hstep
  refine ⟨CellStep.did (p := q) ?_ htakes hstrict, hkey, hnext⟩
  rw [hkey]
  exact hnext

/-- An event that is not the writing of a request needs no condition. -/
lemma trade_did' (hstep : Step cfg k p e q) (htakes : e.takes? = none)
    (hcreate : ∀ r, e ≠ .sent (.create r)) :
    BridgeTrade cfg strict spare (w.holding ((c, ⟨k, p⟩) :: o))
      ((w.did c e).holding ((c, ⟨k, q⟩) :: o)) :=
  trade_did hstep htakes fun _ r he => absurd he (hcreate r)

lemma trade_exit {b : Bool} {stage : Stage} :
    BridgeTrade cfg strict spare (w.holding ((c, ⟨k, .live b stage⟩) :: o))
      ((w.exit c).holding o) :=
  (trade_did' .exited rfl (by simp)).trans (Trade.drop (Or.inl rfl))

lemma trade_take {a : Arrival} {rest : List Arrival} (hstep : Step cfg k p e q)
    (htakes : e.takes? = some a) (hunread : (w.conns.cell c).unread = a :: rest) :
    BridgeTrade cfg strict spare (w.holding ((c, ⟨k, p⟩) :: o))
      ((w.take c e rest).holding ((c, ⟨k, q⟩) :: o)) := by
  refine Trade.write fun hsat => ?_
  obtain ⟨hkey, hrun⟩ : (w.conns.cell c).key cfg = k ∧ Run cfg k (w.conns.cell c).log p := hsat
  have hnext : Run cfg k ((w.conns.cell c).log ++ [e]) q := hrun.snoc hstep
  refine ⟨CellStep.took (p := q) ?_ htakes hunread, hkey, hnext⟩
  rw [hkey]
  exact hnext

lemma trade_connect (w : World) (r : Request) (o : List (ℕ × Token)) :
    BridgeTrade cfg strict spare (w.holding o)
      (World.holding { w with conns := w.conns.push r.connect }
        ((w.conns.next, ⟨r.key cfg, .live false .ready⟩) :: o)) :=
  Trade.push .opened ⟨rfl, .opened⟩

lemma trade_abandon (h : spare p.shared) :
    BridgeTrade cfg strict spare (w.holding ((c, ⟨k, p⟩) :: o)) (w.holding o) :=
  Trade.drop (Or.inr h)

/-- Idle connections are abandoned. -/
lemma trade_abandon_all {l o : List (ℕ × Token)}
    (h : ∀ t ∈ l, spare t.2.phase.shared) :
    BridgeTrade cfg strict spare (w.holding (l ++ o)) (w.holding o) := by
  induction l with
  | nil => exact .refl
  | cons t l ih =>
      rw [List.forall_mem_cons] at h
      exact (trade_abandon h.1).trans (ih h.2)

lemma trade_perm {o o' : List (ℕ × Token)} (h : o.Perm o') :
    BridgeTrade cfg strict spare (w.holding o) (w.holding o') :=
  Trade.perm (h.append_right _)

end Conn

/-! ### Requests -/

section Request

variable {w : World} {r : Request}

lemma sendCreate_trade (o : Opened) :
    BridgeTrade cfg strict spare (w.holding [o.token cfg r .ready])
      ((sendCreate w r o).1.holding ((sendCreate w r o).2.view cfg r)) :=
  trade_did' (.send rfl) rfl (by simp)

lemma closeStale_trade (attempt : ℕ) (selected : Option Idle) (stale : List Idle) :
    BridgeTrade cfg strict spare
      (w.holding ((RequestPc.checkingOut attempt selected stale).view cfg r))
      ((closeStale w r attempt selected stale).1.holding
        ((closeStale w r attempt selected stale).2.view cfg r)) := by
  cases stale with
  | nil =>
      cases selected with
      | none => exact .refl
      | some entry => exact sendCreate_trade ⟨entry.conn, attempt, true⟩
  | cons entry stale =>
      -- the entry is brought to the front and closed
      exact (trade_perm List.perm_middle).trans trade_exit

lemma checkout_trade (attempt : ℕ) :
    BridgeTrade cfg strict spare (w.holding [])
      (World.holding { w with pool := (w.pool.checkout (w.isUsable cfg) (r.key cfg)).pool }
        ((RequestPc.checkingOut attempt (w.pool.checkout (w.isUsable cfg) (r.key cfg)).selected
          (w.pool.checkout (w.isUsable cfg) (r.key cfg)).stale).view cfg r)) := by
  have hperm := (Pool.checkout_perm w.pool (w.isUsable cfg) (r.key cfg)).map Idle.token
  have hkey : ∀ e ∈ (w.pool.checkout (w.isUsable cfg) (r.key cfg)).selected.toList,
      e.key = r.key cfg := fun e he =>
    Pool.key_of_mem_checkout (List.mem_append_left _ he)
  generalize w.pool.checkout (w.isUsable cfg) (r.key cfg) = out at hperm hkey ⊢
  have hselected : out.selected.toList.map Idle.token
      = out.selected.toList.map fun e => (e.conn, ⟨r.key cfg, .live true .ready⟩) := by
    refine List.map_congr_left fun e he => ?_
    rw [Idle.token, hkey e he]
  rw [List.map_append, List.map_append, hselected] at hperm
  exact Trade.perm hperm

lemma startAttempt_trade (attempt : ℕ) :
    BridgeTrade cfg strict spare (w.holding [])
      ((startAttempt cfg w r attempt).1.holding ((startAttempt cfg w r attempt).2.view cfg r)) := by
  rw [startAttempt]
  split
  · exact .refl
  · exact .refl
  · split_ifs
    · exact (checkout_trade attempt).trans (closeStale_trade attempt _ _)
    · exact .refl

lemma attemptFailed_trade (attempt : ℕ) (e : BridgeError) :
    BridgeTrade cfg strict spare (w.holding [])
      ((attemptFailed cfg w r attempt e).1.holding
        ((attemptFailed cfg w r attempt e).2.view cfg r)) := by
  rw [attemptFailed]
  split_ifs
  · exact .refl
  · exact startAttempt_trade (attempt + 1)
  · exact .refl

lemma startRequest_trade :
    BridgeTrade cfg strict spare (w.holding [])
      ((startRequest cfg w r).1.holding ((startRequest cfg w r).2.view cfg r)) := by
  rw [startRequest]
  split_ifs
  · exact .refl
  · exact startAttempt_trade 1

lemma forwardMessage_trade (o : Opened) (a : Arrival) :
    BridgeTrade cfg strict spare (w.holding [o.token cfg r (.received r a)])
      ((forwardMessage cfg w r o a).1.holding
        ((forwardMessage cfg w r o a).2.view cfg r)) := by
  rw [forwardMessage]
  split
  · exact trade_did' .yielded rfl (by simp)
  · exact trade_exit

lemma resume_trade (o : Opened) (a : Arrival) :
    BridgeTrade cfg strict spare (w.holding [o.token cfg r (.yielded r a)])
      ((resume cfg w r o a).1.holding ((resume cfg w r o a).2.1.view cfg r ++
        (resume cfg w r o a).2.2.flatMap (Task.view cfg))) := by
  rw [resume]
  split
  · rename_i id hid
    exact trade_did' (.completed hid) rfl (by simp)
  · rename_i hnone
    exact (trade_did' (.resumed hnone) rfl (by simp)).trans (trade_did' .again rfl (by simp))

/-- The connection of a request is abandoned before it is on its way back. -/
lemma abandon_token_trade {o : Opened} {stage : Stage} (hstage : stage.releasing = false)
    (hfree : spare o.reused) :
    BridgeTrade cfg strict spare (w.holding [o.token cfg r stage]) (w.holding []) := by
  refine trade_abandon ?_
  simpa [Phase.shared, hstage] using hfree

/-- No task is created. -/
lemma trade_alone {x : Store Conn × List (ℕ × Token)} {l : List (ℕ × Token)}
    (h : BridgeTrade cfg strict spare x (w.holding l)) :
    BridgeTrade cfg strict spare x (w.holding (l ++ [].flatMap (Task.view cfg))) := by
  rwa [List.flatMap_nil, List.append_nil]

/-- What is given up when a request is cancelled may be given up. -/
lemma RequestPc.spare_of_cancelled {pc : RequestPc} (hpc : pc.Cancellable w)
    (hspare : ∀ x ∈ pc.abandons cfg .cancelled, spare x.2) :
    ∀ t ∈ pc.view cfg r, spare t.2.phase.shared := by
  intro t ht
  cases hpc with
  | @checkingOut attempt selected stale =>
      rcases List.mem_append.mp ht with ht | ht
      · obtain ⟨entry, hentry, rfl⟩ := List.mem_map.mp ht
        exact hspare (entry.conn, true) (List.mem_map_of_mem (List.mem_append_left _ hentry))
      · obtain ⟨entry, hentry, rfl⟩ := List.mem_map.mp ht
        exact hspare (entry.conn, true) (List.mem_map_of_mem (List.mem_append_right _ hentry))
  | @sending o written =>
      have hfree : spare o.reused := hspare (o.conn, o.reused) (List.mem_singleton_self _)
      cases written <;>
      · obtain rfl := List.mem_singleton.mp ht
        simpa [Opened.token, Phase.shared, Stage.releasing] using hfree
  | @awaitingFirst o _ | @head o _ =>
      have hfree : spare o.reused := hspare (o.conn, o.reused) (List.mem_singleton_self _)
      obtain rfl := List.mem_singleton.mp ht
      simpa [Opened.token, Phase.shared, Stage.releasing] using hfree
  | connecting | connectFailed | closingAttempt | backingOff | closing =>
      exact absurd ht List.not_mem_nil

/-- **A move of a request** is a trade. -/
theorem requestMove_trade {pc : RequestPc} {outcome : Outcome} {p : World × RequestPc}
    {new : List Task} (h : RequestMove cfg w r pc outcome p new)
    (hstrict : strict → (Task.request r pc).writesClean w outcome)
    (hspare : ∀ x ∈ pc.abandons cfg outcome, spare x.2) :
    BridgeTrade cfg strict spare (w.holding (pc.view cfg r))
      (p.1.holding (p.2.view cfg r ++ new.flatMap (Task.view cfg))) := by
  cases h with
  | staleClosed => exact trade_alone (closeStale_trade _ _ _)
  | @connected attempt =>
      refine trade_alone ((trade_connect w r []).trans ?_)
      exact sendCreate_trade ⟨w.conns.next, attempt, false⟩
  | refused => exact .refl
  | contextClosed | attemptClosed => exact trade_alone (attemptFailed_trade _ _)
  -- the one step that the strict reading looks at
  | wrote => exact trade_did .sent rfl fun hs _ _ => List.isEmpty_iff.mp (hstrict hs)
  | sent => exact trade_did' .recv rfl (by simp)
  | @sendFailed o written => cases written <;> exact trade_exit
  | first hunread => exact trade_take .received rfl hunread
  | firstFailed => exact trade_exit
  -- a connection that nobody closes is abandoned
  | @firstUncaught o e _ herr =>
      have hfree : spare o.reused := hspare (o.conn, o.reused) (by simp [RequestPc.abandons, herr])
      exact abandon_token_trade rfl hfree
  | backedOff => exact trade_alone (startAttempt_trade _)
  | headSent => exact trade_alone (forwardMessage_trade _ _)
  | @headFailed o =>
      have hfree : spare o.reused := hspare (o.conn, o.reused) (List.mem_singleton_self _)
      exact abandon_token_trade rfl hfree
  | @resumed o a => exact resume_trade o a
  | yieldBroken | recvBroken => exact trade_exit
  | next hunread =>
      exact trade_alone ((trade_take .received rfl hunread).trans (forwardMessage_trade _ _))
  | closed => exact .refl
  | cancelled hpc =>
      rw [← List.append_nil (pc.view cfg r)]
      exact trade_abandon_all (pc.spare_of_cancelled hpc hspare)

end Request

/-! ### Background tasks -/

section Background

variable {w : World} {r : Request} {o : Opened}

/-- A connection that may be probed is closed, or probed. -/
lemma releaseOrClose_trade {stage : Stage}
    (hprobe : ∀ b, Step cfg (r.key cfg) (.live b stage) .recv (.live b .probing)) :
    BridgeTrade cfg strict spare (w.holding [o.token cfg r stage])
      ((releaseOrClose cfg w o).1.holding ((releaseOrClose cfg w o).2.view cfg r o)) := by
  rw [releaseOrClose]
  split_ifs
  · exact trade_exit
  · exact trade_exit
  · exact trade_exit
  · exact trade_did' (hprobe o.reused) rfl (by simp)

lemma closeEvicted_trade (stale : List Idle) :
    BridgeTrade cfg strict spare (w.holding (stale.map Idle.token))
      ((closeEvicted w stale).1.holding ((closeEvicted w stale).2.view cfg r o)) := by
  cases stale with
  | nil => exact .refl
  | cons entry rest => exact trade_exit

lemma putBack_trade :
    BridgeTrade cfg strict spare (w.holding [o.token cfg r .probing])
      ((putBack cfg w r o).1.holding ((putBack cfg w r o).2.view cfg r o)) := by
  have hperm := (Pool.insert_perm w.pool cfg.settings.websocketPoolMaxIdle
    ⟨o.conn, r.key cfg, w.now⟩).map Idle.token
  rw [List.map_append, List.map_cons] at hperm
  have hpooled : BridgeTrade cfg strict spare (w.holding [o.token cfg r .probing])
      ((w.did o.conn .pooled).holding [(o.conn, ⟨r.key cfg, .live true .ready⟩)]) :=
    trade_did' .pooled rfl (by simp)
  rw [putBack]
  generalize w.pool.insert cfg.settings.websocketPoolMaxIdle ⟨o.conn, r.key cfg, w.now⟩ = out
    at hperm ⊢
  obtain ⟨closeLater, pool⟩ := out
  have hclose := @closeEvicted_trade cfg strict spare { w.did o.conn .pooled with pool := pool }
    r o closeLater
  exact (hpooled.trans (Trade.perm hperm)).trans hclose

lemma discardPending_trade {a : Arrival}
    (hspare : (∃ e, websocketMessageToText a.message >>= eventType cfg.runtime.depth = .error e) →
      spare true) :
    BridgeTrade cfg strict spare (w.holding [o.token cfg r .drained])
      ((discardPending cfg w o a).1.holding ((discardPending cfg w o a).2.view cfg r o)) := by
  rw [discardPending]
  split
  · exact trade_exit
  · rename_i e he
    refine trade_abandon ?_
    simpa [Phase.shared, Stage.releasing] using hspare ⟨e, he⟩

/-- What is given up when a background task is cancelled may be given up. -/
lemma BackgroundPc.spare_of_cancelled {pc : BackgroundPc} (hpc : pc.Cancellable w o)
    (hspare : ∀ x ∈ pc.abandons cfg w o .cancelled, spare x.2) :
    ∀ t ∈ pc.view cfg r o, spare t.2.phase.shared := by
  intro t ht
  cases hpc with
  | scheduled | probing =>
      have hfree : spare true := hspare (o.conn, true) (List.mem_singleton_self _)
      obtain rfl := List.mem_singleton.mp ht
      simpa [Opened.token, Phase.shared, Stage.releasing] using hfree
  | @acknowledging id written =>
      have hfree : spare true := hspare (o.conn, true) (List.mem_singleton_self _)
      cases written <;>
      · obtain rfl := List.mem_singleton.mp ht
        simpa [Opened.token, Phase.shared, Stage.releasing] using hfree
  | @evicting stale =>
      obtain ⟨entry, hentry, rfl⟩ := List.mem_map.mp ht
      exact hspare (entry.conn, true) (List.mem_map_of_mem hentry)
  | closing => exact absurd ht List.not_mem_nil

/-- **A move of a background task** is a trade. -/
theorem backgroundMove_trade {pc : BackgroundPc} {outcome : Outcome} {p : World × BackgroundPc}
    (h : BackgroundMove cfg w r o pc outcome p)
    (hspare : ∀ x ∈ pc.abandons cfg w o outcome, spare x.2) :
    BridgeTrade cfg strict spare (w.holding (pc.view cfg r o))
      (p.1.holding (p.2.view cfg r o)) := by
  cases h with
  | started hset => exact trade_did' (.acknowledge hset) rfl (by simp)
  | unacknowledged hset => exact releaseOrClose_trade fun _ => .probeUnacknowledged hset
  | wrote => exact trade_did' .acknowledged rfl (by simp)
  | acknowledged => exact releaseOrClose_trade fun _ => .probe
  | @sendFailed id written => cases written <;> exact trade_exit
  | pending hunread =>
      refine (trade_take .drained rfl hunread).trans (discardPending_trade ?_)
      rintro ⟨e, he⟩
      exact hspare (o.conn, true) (by simp [BackgroundPc.abandons, hunread, he])
  | silent => exact putBack_trade
  | probeFailed => exact trade_exit
  | evicted => exact closeEvicted_trade _
  | closed => exact .refl
  | cancelled hpc =>
      rw [← List.append_nil (pc.view cfg r o)]
      exact trade_abandon_all (pc.spare_of_cancelled hpc hspare)

end Background

/-! ### Closing the pool -/

section Closer

variable {w : World}

lemma closeIdle_trade (rest : List Idle) :
    BridgeTrade cfg strict spare (w.holding (rest.map Idle.token))
      ((closeIdle w rest).1.holding (closeIdle w rest).2.view) := by
  cases rest with
  | nil => exact .refl
  | cons entry rest => exact trade_exit

lemma startClose_trade :
    BridgeTrade cfg strict spare (w.holding [])
      ((startClose w).1.holding (startClose w).2.view) := by
  have hclear : BridgeTrade cfg strict spare (w.holding [])
      (World.holding { w with pool := Pool.empty } (w.pool.entries.map Idle.token)) := by
    refine Trade.perm ?_
    rw [List.nil_append, Pool.view, Pool.view, Pool.entries_empty, List.map_nil, List.append_nil]
  exact hclear.trans (closeIdle_trade w.pool.entries)

theorem closerMove_trade {pc : CloserPc} {outcome : Outcome} {p : World × CloserPc}
    (h : CloserMove w pc outcome p) (hspare : ∀ x ∈ pc.abandons outcome, spare x.2) :
    BridgeTrade cfg strict spare (w.holding pc.view) (p.1.holding p.2.view) := by
  cases h with
  | closed _ => exact closeIdle_trade _
  | cancelled =>
      rw [← List.append_nil (CloserPc.view (.closing _))]
      refine trade_abandon_all fun t ht => ?_
      obtain ⟨entry, hentry, rfl⟩ := List.mem_map.mp ht
      exact hspare (entry.conn, true) (List.mem_map_of_mem hentry)

end Closer

/-- **A step of a task** is a trade of what it holds and what is in the pool. -/
theorem taskMove_trade {w w' : World} {task task' : Task} {outcome : Outcome} {new : List Task}
    (h : TaskMove cfg w task outcome (w', task') new)
    (hstrict : strict → task.writesClean w outcome)
    (hspare : ∀ x ∈ task.abandons cfg w outcome, spare x.2) :
    BridgeTrade cfg strict spare (w.holding (task.view cfg))
      (w'.holding (task'.view cfg ++ new.flatMap (Task.view cfg))) := by
  cases h with
  | request hmove => exact requestMove_trade hmove hstrict hspare
  | background hmove =>
      rw [List.flatMap_nil, List.append_nil]
      exact backgroundMove_trade hmove hspare
  | closer hmove =>
      rw [List.flatMap_nil, List.append_nil]
      exact closerMove_trade hmove hspare

end CodexResetProxy
