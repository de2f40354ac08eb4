import CodexResetProxy.Bridge.Ownership

/-!
What the tasks of the bridge do with the messages of the upstream.

* `World.settled`: the messages of a connection, those taken and those that wait;
  the tasks never change it (`taskMove_settled`).
* `World.history`: the messages of a connection that were received, yielded and
  drained. `ServedOn`: what a request received stands together in the history of one
  connection, and was yielded to it, one by one, except perhaps the last.
* `World.Still`: the parts of the source that leave the messages alone.
* `RequestPc.Reception`: what a request has received where it is suspended;
  `requestMove_reception`: its own steps keep this, `Reception.frame`: and so do the
  steps of the others, which only add to the history of what they hold
  (`taskMove_adds`).
-/

namespace CodexResetProxy

open Custody Transition Protocol PyStr

/-! ### What is done with the messages -/

/-- The events that say what becomes of a message. -/
def Event.handles : Event → Bool
  | .received _ _ => true
  | .yielded _ _ => true
  | .drained _ => true
  | _ => false

/-- What became of the messages of a connection. -/
def World.history (w : World) (c : ℕ) : List Event :=
  (w.conns.cell c).log.filter Event.handles

/-- The messages of a connection: those that were taken from it, and those that
wait. -/
def World.settled (w : World) (c : ℕ) : List Message :=
  ((w.conns.cell c).log.filterMap Event.takes? ++ (w.conns.cell c).unread).map Arrival.message

/-- The message that an action brings to a connection. -/
def Action.arrives? (c : ℕ) : Action → Option Message
  | .arrive d message => if d = c then some message else none
  | _ => none

/-- The messages that arrive on a connection in a run. -/
def arrived (c : ℕ) (l : List (State × Action)) : List Message :=
  l.filterMap fun x => x.2.arrives? c

/-- Nothing of this is about a request. -/
def Unserved (r : Request) (history : List Event) : Prop :=
  ∀ a, .received r a ∉ history ∧ .yielded r a ∉ history

/-- Messages that were received and yielded, one after the other. -/
def served (r : Request) (got : List Arrival) : List Event :=
  got.flatMap fun a => [.received r a, .yielded r a]

/-- A request gets its messages on one connection. In the history of that
connection they stand together: those that were yielded to it, `got`, and perhaps
one that was not. Only the last of them may complete the response. -/
structure ServedOn (cfg : Config) (r : Request) (h : ℕ → List Event) (c : ℕ)
    (got : List Arrival) (pending : Option Arrival) (after : List Event) : Prop where
  others : ∀ d, d ≠ c → Unserved r (h d)
  split : ∃ before, Unserved r before ∧
    h c = before ++ served r got ++ pending.toList.map (.received r) ++ after
  after : Unserved r after
  formatted : ∀ a ∈ got, ∃ f, forward cfg.runtime.depth a.message = .ok f
  going : ∀ a ∈ (got ++ pending.toList).dropLast, completedId cfg.runtime.depth a.message = none

variable {cfg : Config} {w w' : World} {r : Request} {o : Opened} {outcome : Outcome}

@[simp] lemma served_nil (r : Request) : served r [] = [] := rfl

@[simp] lemma served_concat (r : Request) (got : List Arrival) (a : Arrival) :
    served r (got ++ [a]) = served r got ++ [.received r a, .yielded r a] := by
  simp [served]

lemma unserved_nil (r : Request) : Unserved r [] := fun _ => ⟨List.not_mem_nil, List.not_mem_nil⟩

lemma Unserved.append {h k : List Event} (hh : Unserved r h) (hk : Unserved r k) :
    Unserved r (h ++ k) := by
  intro a
  simp only [List.mem_append, not_or]
  exact ⟨⟨(hh a).1, (hk a).1⟩, (hh a).2, (hk a).2⟩

/-! ### Steps that leave the messages alone -/

/-- No message is taken from a connection, nor yielded. -/
structure World.Still (w w' : World) : Prop where
  history : w'.history = w.history
  settled : w'.settled = w.settled

namespace World

variable {c : ℕ} {e : Event}

lemma Still.refl (w : World) : w.Still w := ⟨rfl, rfl⟩

lemma Still.trans {w'' : World} (h : w.Still w') (h' : w'.Still w'') : w.Still w'' :=
  ⟨h'.history.trans h.history, h'.settled.trans h.settled⟩

/-- The pool does not matter. -/
lemma Still.of_pool {pool : Pool} (h : World.Still { w with pool := pool } w') : w.Still w' :=
  ⟨h.history, h.settled⟩

lemma settled_did (h : e.takes? = none) : (w.did c e).settled = w.settled := by
  funext d
  by_cases hd : d = c
  · subst hd
    simp [World.settled, World.did, Conn.did, h]
  · simp [World.settled, World.did, Store.set_cell_of_ne _ _ hd]

lemma history_did : (w.did c e).history
    = Function.update w.history c (w.history c ++ [e].filter Event.handles) := by
  funext d
  by_cases hd : d = c
  · subst hd
    simp [World.history, World.did, Conn.did]
  · simp [World.history, World.did, Store.set_cell_of_ne _ _ hd, Function.update_of_ne hd]

lemma Still.did (h : e.takes? = none) (he : e.handles = false) : w.Still (w.did c e) := by
  refine ⟨?_, settled_did h⟩
  rw [history_did]
  simp [he]

lemma Still.exit : w.Still (w.exit c) := .did rfl rfl

/-- A new connection has no messages. -/
lemma Still.push (hblank : w.conns.cell w.conns.next = .blank) :
    w.Still { w with conns := w.conns.push r.connect } := by
  constructor <;> funext d <;> by_cases hd : d = w.conns.next
  · subst hd
    simp [World.history, hblank, Request.connect]
  · simp [World.history, Store.push_cell_of_ne _ _ hd]
  · subst hd
    simp [World.settled, hblank, Request.connect]
  · simp [World.settled, Store.push_cell_of_ne _ _ hd]

/-- A message is taken. -/
lemma settled_take {a : Arrival} {rest : List Arrival} (he : e.takes? = some a)
    (hunread : (w.conns.cell c).unread = a :: rest) : (w.take c e rest).settled = w.settled := by
  funext d
  by_cases hd : d = c
  · subst hd
    simp [World.settled, World.take, Conn.did, he, hunread]
  · simp [World.settled, World.take, Store.set_cell_of_ne _ _ hd]

lemma history_take {rest : List Arrival} (he : e.handles = true) :
    (w.take c e rest).history = Function.update w.history c (w.history c ++ [e]) := by
  funext d
  by_cases hd : d = c
  · subst hd
    simp [World.history, World.take, Conn.did, he]
  · simp [World.history, World.take, Store.set_cell_of_ne _ _ hd, Function.update_of_ne hd]

end World

lemma closeStale_still (w : World) (r : Request) (attempt : ℕ) (selected : Option Idle)
    (stale : List Idle) : w.Still (closeStale w r attempt selected stale).1 := by
  cases stale with
  | cons entry stale => exact .exit
  | nil =>
      cases selected with
      | none => exact .refl w
      | some entry => exact .did rfl rfl

lemma startAttempt_still (cfg : Config) (w : World) (r : Request) (attempt : ℕ) :
    w.Still (startAttempt cfg w r attempt).1 := by
  rw [startAttempt]
  split
  · exact .refl w
  · exact .refl w
  · split_ifs
    · exact .of_pool (closeStale_still _ r attempt _ _)
    · exact .refl w

lemma attemptFailed_still (cfg : Config) (w : World) (r : Request) (attempt : ℕ)
    (e : BridgeError) : w.Still (attemptFailed cfg w r attempt e).1 := by
  rw [attemptFailed]
  split_ifs
  · exact .refl w
  · exact startAttempt_still cfg w r (attempt + 1)
  · exact .refl w

lemma startRequest_still (cfg : Config) (w : World) (r : Request) :
    w.Still (startRequest cfg w r).1 := by
  rw [startRequest]
  split_ifs
  · exact .refl w
  · exact startAttempt_still cfg w r 1

lemma resume_still (cfg : Config) (w : World) (r : Request) (o : Opened) (a : Arrival) :
    w.Still (resume cfg w r o a).1 := by
  rw [resume]
  split
  · exact .did rfl rfl
  · exact (World.Still.did rfl rfl).trans (.did rfl rfl)

lemma releaseOrClose_still (cfg : Config) (w : World) (o : Opened) :
    w.Still (releaseOrClose cfg w o).1 := by
  rw [releaseOrClose]
  split_ifs
  · exact .exit
  · exact .exit
  · exact .exit
  · exact .did rfl rfl

lemma closeEvicted_still (w : World) (stale : List Idle) : w.Still (closeEvicted w stale).1 := by
  cases stale with
  | nil => exact .refl w
  | cons entry rest => exact .exit

lemma putBack_still (cfg : Config) (w : World) (r : Request) (o : Opened) :
    w.Still (putBack cfg w r o).1 := by
  rw [putBack]
  have hpooled : w.Still (w.did o.conn .pooled) := .did rfl rfl
  exact hpooled.trans (.of_pool (closeEvicted_still _ _))

lemma discardPending_still (cfg : Config) (w : World) (o : Opened) (a : Arrival) :
    w.Still (discardPending cfg w o a).1 := by
  rw [discardPending]
  split
  · exact .exit
  · exact .refl w

lemma closeIdle_still (w : World) (rest : List Idle) : w.Still (closeIdle w rest).1 := by
  cases rest with
  | nil => exact .refl w
  | cons entry rest => exact .exit

lemma startClose_still (w : World) : w.Still (startClose w).1 := by
  exact .of_pool (closeIdle_still _ w.pool.clear.1)

/-! ### One request -/

variable (cfg) in
/-- What a request has received and been given, where it is suspended. -/
def RequestPc.Reception (r : Request) (h : ℕ → List Event) : RequestPc → Prop
  | .head o a => ∃ got, ServedOn cfg r h o.conn got (some a) []
  | .suspended o a => ∃ got, ServedOn cfg r h o.conn (got ++ [a]) none []
  | .receiving o => ∃ got, ServedOn cfg r h o.conn got none [] ∧
      ∀ a ∈ got, completedId cfg.runtime.depth a.message = none
  | .closing _ => ∃ c got pending after, ServedOn cfg r h c got pending after
  | .finished (some _) => ∃ c got pending after, ServedOn cfg r h c got pending after
  | .finished none => ∃ c got a id after, ServedOn cfg r h c (got ++ [a]) none after ∧
      completedId cfg.runtime.depth a.message = some id
  | _ => ∀ c, Unserved r (h c)

section Served

variable {h h' : ℕ → List Event} {c : ℕ} {got : List Arrival} {pending : Option Arrival}
  {after : List Event} {a : Arrival}

lemma servedOn_of_unserved (cfg : Config) (hnone : ∀ d, Unserved r (h d)) (c : ℕ) :
    ServedOn cfg r h c [] none [] where
  others := fun d _ => hnone d
  split := ⟨h c, hnone c, by simp⟩
  after := unserved_nil r
  formatted := fun _ ha => absurd ha List.not_mem_nil
  going := fun _ ha => absurd ha List.not_mem_nil

/-- The request receives its next message. -/
lemma ServedOn.received (hs : ServedOn cfg r h c got none [])
    (hnone : ∀ b ∈ got, completedId cfg.runtime.depth b.message = none) (a : Arrival) :
    ServedOn cfg r (Function.update h c (h c ++ [.received r a])) c got (some a) [] where
  others := fun d hd => by
    rw [Function.update_of_ne hd]
    exact hs.others d hd
  split := by
    obtain ⟨before, hbefore, hsplit⟩ := hs.split
    exact ⟨before, hbefore, by simp [hsplit]⟩
  after := unserved_nil r
  formatted := hs.formatted
  going := fun b hb => hnone b (by simpa using hb)

/-- The message is yielded to the request. -/
lemma ServedOn.yielded (hs : ServedOn cfg r h c got (some a) [])
    (hf : ∃ f, forward cfg.runtime.depth a.message = .ok f) :
    ServedOn cfg r (Function.update h c (h c ++ [.yielded r a])) c (got ++ [a]) none [] where
  others := fun d hd => by
    rw [Function.update_of_ne hd]
    exact hs.others d hd
  split := by
    obtain ⟨before, hbefore, hsplit⟩ := hs.split
    exact ⟨before, hbefore, by simp [hsplit]⟩
  after := unserved_nil r
  formatted := fun b hb => by
    rcases List.mem_append.mp hb with hb | hb
    · exact hs.formatted b hb
    · obtain rfl := List.mem_singleton.mp hb
      exact hf
  going := fun b hb => hs.going b (by simpa using hb)

/-- What is not about the request does not matter to it. -/
lemma ServedOn.frame {more : ℕ → List Event} (hs : ServedOn cfg r h c got pending after)
    (hmore : ∀ d, h' d = h d ++ more d) (hnone : ∀ d, Unserved r (more d)) :
    ServedOn cfg r h' c got pending (after ++ more c) where
  others := fun d hd => by
    rw [hmore]
    exact (hs.others d hd).append (hnone d)
  split := by
    obtain ⟨before, hbefore, hsplit⟩ := hs.split
    exact ⟨before, hbefore, by rw [hmore, hsplit, List.append_assoc]⟩
  after := hs.after.append (hnone c)
  formatted := hs.formatted
  going := hs.going

/-- An ended request that received nothing. -/
lemma reception_finished (hnone : ∀ d, Unserved r (h d)) (raised : Raised) :
    (RequestPc.finished (some raised)).Reception cfg r h :=
  ⟨0, [], none, [], servedOn_of_unserved cfg hnone 0⟩

/-- A request is ended by what it raises, wherever it is. -/
lemma RequestPc.Reception.finished {pc : RequestPc} (hpc : pc.Reception cfg r h)
    (raised : Raised) : (RequestPc.finished (some raised)).Reception cfg r h := by
  cases pc with
  | head o a =>
      obtain ⟨got, hs⟩ := hpc
      exact ⟨_, _, _, _, hs⟩
  | suspended o a =>
      obtain ⟨got, hs⟩ := hpc
      exact ⟨_, _, _, _, hs⟩
  | receiving o =>
      obtain ⟨got, hs, _⟩ := hpc
      exact ⟨_, _, _, _, hs⟩
  | closing raised' => exact hpc
  | finished raised' =>
      cases raised' with
      | some raised' => exact hpc
      | none =>
          obtain ⟨c, got, a, id, after, hs, _⟩ := hpc
          exact ⟨_, _, _, _, hs⟩
  | _ => exact reception_finished hpc raised

end Served

section Request

variable (hnone : ∀ d, Unserved r (w.history d))

include hnone

lemma closeStale_reception (attempt : ℕ) (selected : Option Idle) (stale : List Idle) :
    (closeStale w r attempt selected stale).2.Reception cfg r
      (closeStale w r attempt selected stale).1.history := by
  rw [(closeStale_still w r attempt selected stale).history]
  cases stale with
  | cons entry stale => exact hnone
  | nil => cases selected <;> exact hnone

lemma startAttempt_reception (attempt : ℕ) :
    (startAttempt cfg w r attempt).2.Reception cfg r
      (startAttempt cfg w r attempt).1.history := by
  rw [startAttempt]
  split
  · exact reception_finished hnone _
  · exact reception_finished hnone _
  · split_ifs
    · refine closeStale_reception (fun d => ?_) attempt _ _
      exact hnone d
    · exact hnone

lemma attemptFailed_reception (attempt : ℕ) (e : BridgeError) :
    (attemptFailed cfg w r attempt e).2.Reception cfg r
      (attemptFailed cfg w r attempt e).1.history := by
  rw [attemptFailed]
  split_ifs
  · exact hnone
  · exact startAttempt_reception hnone (attempt + 1)
  · exact reception_finished hnone _

lemma startRequest_reception :
    (startRequest cfg w r).2.Reception cfg r (startRequest cfg w r).1.history := by
  rw [startRequest]
  split_ifs
  · exact reception_finished hnone _
  · exact startAttempt_reception hnone 1

end Request

/-- The generator goes on with the message that was received. -/
lemma forwardMessage_reception {a : Arrival} {got : List Arrival}
    (hs : ServedOn cfg r w.history o.conn got (some a) []) :
    (forwardMessage cfg w r o a).2.Reception cfg r (forwardMessage cfg w r o a).1.history := by
  rw [forwardMessage]
  split
  · rename_i f hf
    rw [World.history_did]
    exact ⟨got, hs.yielded ⟨f, hf⟩⟩
  · rw [World.Still.exit.history]
    exact ⟨_, _, _, _, hs⟩

/-- **A step of a request** keeps what it has received. -/
theorem requestMove_reception {pc : RequestPc} {p : World × RequestPc} {new : List Task}
    (h : RequestMove cfg w r pc outcome p new)
    (hblank : w.conns.cell w.conns.next = .blank) (hpc : pc.Reception cfg r w.history) :
    p.2.Reception cfg r p.1.history := by
  cases h with
  -- before the first message the history says nothing of the request
  | staleClosed => exact closeStale_reception hpc _ _ _
  | @connected attempt =>
      have hstill : w.Still (sendCreate { w with conns := w.conns.push r.connect } r
          ⟨w.conns.next, attempt, false⟩).1 :=
        (World.Still.push hblank).trans (.did rfl rfl)
      rw [hstill.history]
      exact hpc
  | refused => exact hpc
  | contextClosed | attemptClosed => exact attemptFailed_reception hpc _ _
  | wrote | sent =>
      rw [World.Still.history (.did rfl rfl)]
      exact hpc
  | sendFailed | firstFailed =>
      rw [World.Still.exit.history]
      exact hpc
  | first hunread =>
      rw [World.history_take rfl]
      exact ⟨[], (servedOn_of_unserved cfg hpc _).received (by simp) _⟩
  | firstUncaught | headFailed => exact hpc.finished _
  | backedOff => exact startAttempt_reception hpc _
  | headSent =>
      obtain ⟨got, hs⟩ := hpc
      exact forwardMessage_reception hs
  -- the message has been yielded, and may complete the response
  | @resumed o a =>
      obtain ⟨got, hs⟩ := hpc
      rw [(resume_still cfg w r o a).history, resume]
      split
      · rename_i id hid
        exact ⟨_, _, _, _, _, hs, hid⟩
      · rename_i hid
        refine ⟨_, hs, fun b hb => ?_⟩
        rcases List.mem_append.mp hb with hb | hb
        · exact hs.going b (by simpa using hb)
        · obtain rfl := List.mem_singleton.mp hb
          exact hid
  | yieldBroken =>
      obtain ⟨got, hs⟩ := hpc
      rw [World.Still.exit.history]
      exact ⟨_, _, _, _, hs⟩
  | recvBroken =>
      obtain ⟨got, hs, _⟩ := hpc
      rw [World.Still.exit.history]
      exact ⟨_, _, _, _, hs⟩
  | next hunread =>
      obtain ⟨got, hs, hgoing⟩ := hpc
      refine @forwardMessage_reception _ _ _ _ _ got ?_
      rw [World.history_take rfl]
      exact hs.received hgoing _
  | closed => exact hpc
  | cancelled => exact hpc.finished _

/-! ### The other tasks -/

/-- The request that gets the messages a task receives. -/
def Task.reader : Task → Option Request
  | .request r _ => some r
  | _ => none

/-- A step of a task adds to the history of the connections that it holds, and
nothing there is about the requests of others. -/
def Task.Adds (task : Task) (h h' : ℕ → List Event) : Prop :=
  ∃ more : ℕ → List Event, (∀ d, h' d = h d ++ more d) ∧ (∀ d, d ∉ task.holds → more d = []) ∧
    ∀ r, task.reader ≠ some r → ∀ d, Unserved r (more d)

section Adds

variable {task : Task} {h h' h'' : ℕ → List Event} {c : ℕ} {e : Event}

lemma Task.adds_of_eq (task : Task) (heq : h' = h) : task.Adds h h' :=
  ⟨fun _ => [], fun d => by simp [heq], fun _ _ => rfl, fun r _ _ => unserved_nil r⟩

lemma Task.Adds.trans (hadds : task.Adds h h') (hadds' : task.Adds h' h'') :
    task.Adds h h'' := by
  obtain ⟨more, heq, hholds, hnone⟩ := hadds
  obtain ⟨more', heq', hholds', hnone'⟩ := hadds'
  refine ⟨fun d => more d ++ more' d, fun d => ?_, fun d hd => ?_, fun r hr d => ?_⟩
  · rw [heq', heq, List.append_assoc]
  · simp [hholds d hd, hholds' d hd]
  · exact (hnone r hr d).append (hnone' r hr d)

/-- One event, on a connection that the task holds. -/
lemma Task.adds_update (hc : c ∈ task.holds)
    (he : ∀ r, task.reader ≠ some r → Unserved r [e]) :
    task.Adds h (Function.update h c (h c ++ [e])) := by
  refine ⟨Function.update (fun _ => []) c [e], fun d => ?_, fun d hd => ?_, fun r hr d => ?_⟩
  · by_cases hd : d = c
    · subst hd
      simp
    · simp [Function.update_of_ne hd]
  · have hne : d ≠ c := fun heq => hd (heq ▸ hc)
    simp [Function.update_of_ne hne]
  · by_cases hd : d = c
    · subst hd
      simpa using he r hr
    · rw [Function.update_of_ne hd]
      exact unserved_nil r

/-- What a request does with its messages is not about the others. -/
lemma unserved_of_ne {pc : RequestPc} {a : Arrival}
    (he : e = .received r a ∨ e = .yielded r a) :
    ∀ r', (Task.request r pc).reader ≠ some r' → Unserved r' [e] := by
  intro r' hr b
  have hne : r' ≠ r := fun heq => hr (heq ▸ rfl)
  rcases he with rfl | rfl <;> simp [hne]

end Adds

/-- The generator adds to the history of its connection. -/
lemma forwardMessage_adds {pc : RequestPc} (a : Arrival) (ho : o.conn ∈ pc.holds) :
    (Task.request r pc).Adds w.history (forwardMessage cfg w r o a).1.history := by
  rw [forwardMessage]
  split
  · rw [World.history_did]
    exact Task.adds_update ho (unserved_of_ne (.inr rfl))
  · exact Task.adds_of_eq _ World.Still.exit.history

lemma requestMove_adds {pc : RequestPc} {p : World × RequestPc} {new : List Task}
    (h : RequestMove cfg w r pc outcome p new)
    (hblank : w.conns.cell w.conns.next = .blank) :
    (Task.request r pc).Adds w.history p.1.history := by
  cases h with
  | staleClosed => exact Task.adds_of_eq _ (closeStale_still w r _ _ _).history
  | connected =>
      refine Task.adds_of_eq _ (World.Still.history ?_)
      exact (World.Still.push hblank).trans (.did rfl rfl)
  | contextClosed | attemptClosed =>
      exact Task.adds_of_eq _ (attemptFailed_still cfg w r _ _).history
  | wrote | sent => exact Task.adds_of_eq _ (World.Still.did rfl rfl).history
  | sendFailed | firstFailed | yieldBroken | recvBroken =>
      exact Task.adds_of_eq _ World.Still.exit.history
  | first hunread =>
      rw [World.history_take rfl]
      exact Task.adds_update (List.mem_singleton_self _) (unserved_of_ne (.inl rfl))
  | backedOff => exact Task.adds_of_eq _ (startAttempt_still cfg w r _).history
  | headSent => exact forwardMessage_adds _ (List.mem_singleton_self _)
  | @resumed o a => exact Task.adds_of_eq _ (resume_still cfg w r o a).history
  | next hunread =>
      refine Task.Adds.trans ?_ (forwardMessage_adds _ (List.mem_singleton_self _))
      rw [World.history_take rfl]
      exact Task.adds_update (List.mem_singleton_self _) (unserved_of_ne (.inl rfl))
  | refused | firstUncaught | headFailed | closed | cancelled => exact Task.adds_of_eq _ rfl

lemma backgroundMove_adds {pc : BackgroundPc} {p : World × BackgroundPc}
    (h : BackgroundMove cfg w r o pc outcome p) :
    (Task.background r o pc).Adds w.history p.1.history := by
  cases h with
  | started | wrote => exact Task.adds_of_eq _ (World.Still.did rfl rfl).history
  | unacknowledged | acknowledged => exact Task.adds_of_eq _ (releaseOrClose_still cfg w o).history
  | sendFailed | probeFailed => exact Task.adds_of_eq _ World.Still.exit.history
  | @pending a rest hunread =>
      rw [(discardPending_still cfg _ o a).history, World.history_take rfl]
      refine Task.adds_update (List.mem_singleton_self _) fun r' _ b => ?_
      simp
  | silent => exact Task.adds_of_eq _ (putBack_still cfg w r o).history
  | evicted => exact Task.adds_of_eq _ (closeEvicted_still w _).history
  | closed | cancelled => exact Task.adds_of_eq _ rfl

/-- **A step of a task** adds to the history of what it holds. -/
theorem taskMove_adds {task task' : Task} {new : List Task}
    (h : TaskMove cfg w task outcome (w', task') new)
    (hblank : w.conns.cell w.conns.next = .blank) : task.Adds w.history w'.history := by
  cases h with
  | request h => exact requestMove_adds h hblank
  | background h => exact backgroundMove_adds h
  | closer h =>
      cases h with
      | closed => exact Task.adds_of_eq _ (closeIdle_still w _).history
      | cancelled => exact Task.adds_of_eq _ rfl

/-- **What another task does** changes nothing for a request. -/
theorem RequestPc.Reception.frame {task : Task} {pc : RequestPc} {h h' : ℕ → List Event}
    (hpc : pc.Reception cfg r h) (hadds : task.Adds h h') (hr : task.reader ≠ some r)
    (hholds : ∀ c ∈ pc.holds, c ∉ task.holds) : pc.Reception cfg r h' := by
  obtain ⟨more, heq, hempty, hnone⟩ := hadds
  have hstream : ∀ {c : ℕ} {got : List Arrival} {pending : Option Arrival}, c ∉ task.holds →
      ServedOn cfg r h c got pending [] → ServedOn cfg r h' c got pending [] := by
    intro c got pending hc hs
    simpa [hempty c hc] using hs.frame heq (hnone r hr)
  cases pc with
  | head o a =>
      obtain ⟨got, hs⟩ := hpc
      exact ⟨got, hstream (hholds _ (List.mem_singleton_self _)) hs⟩
  | suspended o a =>
      obtain ⟨got, hs⟩ := hpc
      exact ⟨got, hstream (hholds _ (List.mem_singleton_self _)) hs⟩
  | receiving o =>
      obtain ⟨got, hs, hgoing⟩ := hpc
      exact ⟨got, hstream (hholds _ (List.mem_singleton_self _)) hs, hgoing⟩
  | closing raised =>
      obtain ⟨c, got, pending, after, hs⟩ := hpc
      exact ⟨_, _, _, _, hs.frame heq (hnone r hr)⟩
  | finished raised =>
      cases raised with
      | some raised =>
          obtain ⟨c, got, pending, after, hs⟩ := hpc
          exact ⟨_, _, _, _, hs.frame heq (hnone r hr)⟩
      | none =>
          obtain ⟨c, got, a, id, after, hs, hid⟩ := hpc
          exact ⟨_, _, _, _, _, hs.frame heq (hnone r hr), hid⟩
  | _ =>
      intro d
      rw [heq]
      exact (hpc d).append (hnone r hr d)

/-! ### All that arrives -/

lemma requestMove_settled {pc : RequestPc} {p : World × RequestPc} {new : List Task}
    (h : RequestMove cfg w r pc outcome p new)
    (hblank : w.conns.cell w.conns.next = .blank) : p.1.settled = w.settled := by
  have hforward : ∀ (w : World) (o : Opened) (a : Arrival),
      (forwardMessage cfg w r o a).1.settled = w.settled := by
    intro w o a
    rw [forwardMessage]
    split <;> exact World.settled_did rfl
  cases h with
  | staleClosed => exact (closeStale_still w r _ _ _).settled
  | connected =>
      refine World.Still.settled ?_
      exact (World.Still.push hblank).trans (.did rfl rfl)
  | contextClosed | attemptClosed => exact (attemptFailed_still cfg w r _ _).settled
  | wrote | sent | sendFailed | firstFailed | yieldBroken | recvBroken =>
      exact World.settled_did rfl
  | first hunread => exact World.settled_take rfl hunread
  | backedOff => exact (startAttempt_still cfg w r _).settled
  | headSent => exact hforward w _ _
  | @resumed o a => exact (resume_still cfg w r o a).settled
  | next hunread => exact (hforward _ _ _).trans (World.settled_take rfl hunread)
  | refused | firstUncaught | headFailed | closed | cancelled => rfl

/-- **A step of a task** loses no message, and makes none. -/
theorem taskMove_settled {task task' : Task} {new : List Task}
    (h : TaskMove cfg w task outcome (w', task') new)
    (hblank : w.conns.cell w.conns.next = .blank) : w'.settled = w.settled := by
  cases h with
  | request h => exact requestMove_settled h hblank
  | @background r o pc outcome p h =>
      cases h with
      | started | wrote | sendFailed | probeFailed => exact World.settled_did rfl
      | unacknowledged | acknowledged => exact (releaseOrClose_still cfg w o).settled
      | @pending a rest hunread =>
          exact (discardPending_still cfg _ o a).settled.trans (World.settled_take rfl hunread)
      | silent => exact (putBack_still cfg w r o).settled
      | evicted => exact (closeEvicted_still w _).settled
      | closed | cancelled => rfl
  | closer h =>
      cases h with
      | closed => exact (closeIdle_still w _).settled
      | cancelled => rfl

end CodexResetProxy
