import CodexResetProxy.Bridge.History

/-!
Where the messages of the upstream go: every message that arrives on a connection
is taken once, in the order of arrival, and a request gets a contiguous run of the
messages of one connection.

* `State.Serving`: what every request has received, and that nothing is delivered to
  a request that did not come in; `State.Serving.step`: every step keeps it.
* `delivered_of_path`: what holds at the end of every run.
-/

namespace CodexResetProxy

open Custody Transition Protocol PyStr

variable {cfg : Config} {w w' : World} {r : Request} {outcome : Outcome}

/-! ### The system -/

/-- A task stays the request it is. -/
lemma taskMove_request {task task' : Task} {new : List Task} {pc' : RequestPc}
    (h : TaskMove cfg w task outcome (w', task') new) (heq : task' = .request r pc') :
    ∃ pc, task = .request r pc ∧ RequestMove cfg w r pc outcome (w', pc') new := by
  cases h with
  | @request r' pc _ p _ h =>
      cases heq
      exact ⟨pc, rfl, h⟩
  | background h => exact absurd heq (by simp)
  | closer h => exact absurd heq (by simp)

lemma Task.eq_request_of_reader {task : Task} (h : task.reader = some r) :
    ∃ pc, task = .request r pc := by
  cases task with
  | request r' pc => exact ⟨pc, by rw [Option.some.inj h]⟩
  | background r' o pc => cases h
  | closer pc => cases h

/-- A request that did not come in before a step of a task has not come in. -/
lemma not_request_of_run {tasks new : List Task} {task task' : Task} {i : ℕ}
    (h : TaskMove cfg w task outcome (w', task') new) (hi : tasks[i]? = some task)
    (hr : ∀ (j : ℕ) (pc : RequestPc), (tasks.set i task' ++ new)[j]? ≠ some (.request r pc)) :
    ∀ (j : ℕ) (pc : RequestPc), tasks[j]? ≠ some (.request r pc) := by
  intro j pc hj
  obtain ⟨hlt, hget⟩ := List.getElem?_eq_some_iff.mp hj
  by_cases hij : i = j
  · subst hij
    obtain rfl : task = .request r pc := Option.some.inj (hi.symm.trans hj)
    cases h with
    | @request _ _ _ p _ _ =>
        refine hr i p.2 ?_
        rw [List.getElem?_append_left (by simpa using hlt)]
        simp [hlt]
  · refine hr j pc ?_
    rw [List.getElem?_append_left (by simpa using hlt), List.getElem?_set_ne hij]
    exact hj

/-- The tasks that a step creates are not requests. -/
lemma taskMove_new {task task' : Task} {new : List Task} {pc : RequestPc}
    (h : TaskMove cfg w task outcome (w', task') new) : Task.request r pc ∉ new := by
  cases h with
  | request h =>
      cases h with
      | @resumed o a =>
          rw [resume]
          split <;> simp
      | _ => exact List.not_mem_nil
  | background _ => exact List.not_mem_nil
  | closer _ => exact List.not_mem_nil

variable (cfg) in
/-- A request has its place in the list of tasks, got what it got where it is
suspended, and a request that never came in got nothing. -/
structure State.Serving (s : State) : Prop where
  numbered : ∀ (i : ℕ) (r : Request) (pc : RequestPc),
    s.tasks[i]? = some (.request r pc) → r.id = i
  reception : ∀ (i : ℕ) (r : Request) (pc : RequestPc), s.tasks[i]? = some (.request r pc) →
    pc.Reception cfg r s.world.history
  strangers : ∀ r : Request, (∀ (i : ℕ) (pc : RequestPc), s.tasks[i]? ≠ some (.request r pc)) →
    ∀ c, Unserved r (s.world.history c)

section Serving

variable {s s' : State} {a : Action}

/-- Nothing happens to the messages that were taken. -/
lemma State.Serving.of_eq (hs : s.Serving cfg) (htasks : s'.tasks = s.tasks)
    (hhistory : s'.world.history = s.world.history) : s'.Serving cfg := by
  obtain ⟨hnumbered, hreception, hstrangers⟩ := hs
  refine ⟨?_, ?_, ?_⟩ <;> rw [htasks]
  · exact hnumbered
  · rwa [hhistory]
  · rwa [hhistory]

lemma getElem?_concat_eq_some {α : Type*} {l : List α} {x y : α} {i : ℕ}
    (h : (l ++ [x])[i]? = some y) : l[i]? = some y ∨ i = l.length ∧ y = x := by
  rw [List.getElem?_append] at h
  split_ifs at h with hi
  · exact .inl h
  · obtain ⟨hlt, hy⟩ := List.getElem?_eq_some_iff.mp h
    have hlen : i = l.length := by simp at hlt; omega
    exact .inr ⟨hlen, by simpa using hy.symm⟩

lemma getElem?_set_append_eq_some {α : Type*} {l new : List α} {x y : α} {i j : ℕ}
    (h : (l.set i x ++ new)[j]? = some y) :
    i = j ∧ y = x ∨ i ≠ j ∧ l[j]? = some y ∨ y ∈ new := by
  rw [List.getElem?_append] at h
  split_ifs at h with hj
  · rw [List.length_set] at hj
    rw [List.getElem?_set] at h
    split_ifs at h with hij
    · exact .inl ⟨hij, (Option.some.inj h).symm⟩
    · exact .inr (.inl ⟨hij, h⟩)
  · exact .inr (.inr (List.mem_of_getElem? h))

/-- A request that comes in got nothing so far. -/
lemma State.Serving.request (hs : s.Serving cfg) {r : Request} (hr : r.id = s.tasks.length) :
    State.Serving cfg ⟨(startRequest cfg s.world r).1,
      s.tasks ++ [.request r (startRequest cfg s.world r).2]⟩ := by
  have hstill := startRequest_still cfg s.world r
  refine ⟨fun i r' pc hi => ?_, fun i r' pc hi => ?_, fun r' hr' => ?_⟩
  · rcases getElem?_concat_eq_some hi with hi | ⟨rfl, heq⟩
    · exact hs.numbered i r' pc hi
    · cases heq
      exact hr
  · rcases getElem?_concat_eq_some hi with hi | ⟨rfl, heq⟩
    · rw [hstill.history]
      exact hs.reception i r' pc hi
    · cases heq
      refine startRequest_reception (hs.strangers r fun j pc hj => ?_)
      obtain ⟨hlt, _⟩ := List.getElem?_eq_some_iff.mp hj
      exact absurd (hs.numbered j r pc hj) (by omega)
  · rw [hstill.history]
    refine hs.strangers r' fun j pc hj => hr' j pc ?_
    obtain ⟨hlt, _⟩ := List.getElem?_eq_some_iff.mp hj
    rwa [List.getElem?_append_left hlt]

/-- A task goes on. -/
lemma State.Serving.run (hs : s.Serving cfg) (hnodup : s.holders.Nodup)
    (hblank : s.world.conns.cell s.world.conns.next = .blank) {i : ℕ} {task task' : Task}
    {new : List Task} (hi : s.tasks[i]? = some task)
    (h : TaskMove cfg s.world task outcome (w', task') new) :
    State.Serving cfg ⟨w', s.tasks.set i task' ++ new⟩ := by
  have hadds := taskMove_adds h hblank
  refine ⟨fun j r pc hj => ?_, fun j r pc hj => ?_, fun r hr => ?_⟩
  · rcases getElem?_set_append_eq_some hj with ⟨rfl, heq⟩ | ⟨_, hj⟩ | hmem
    · obtain ⟨pc', rfl, _⟩ := taskMove_request h heq.symm
      exact hs.numbered i r pc' hi
    · exact hs.numbered j r pc hj
    · exact absurd hmem (taskMove_new h)
  · rcases getElem?_set_append_eq_some hj with ⟨rfl, heq⟩ | ⟨hne, hj⟩ | hmem
    · obtain ⟨pc', rfl, hmove⟩ := taskMove_request h heq.symm
      exact requestMove_reception hmove hblank (hs.reception i r pc' hi)
    · -- another task has gone on: it reads for another request, on other connections
      refine (hs.reception j r pc hj).frame hadds (fun hr => hne ?_) fun c hc => ?_
      · obtain ⟨pc', rfl⟩ := Task.eq_request_of_reader hr
        rw [← hs.numbered i r pc' hi, ← hs.numbered j r pc hj]
      · exact State.disjoint_holds hnodup hj hi (Ne.symm hne) hc
    · exact absurd hmem (taskMove_new h)
  · obtain ⟨more, heq, _, hnone⟩ := hadds
    have hold := not_request_of_run h hi hr
    intro c
    rw [heq]
    refine (hs.strangers r hold c).append (hnone r (fun hread => ?_) c)
    obtain ⟨pc, rfl⟩ := Task.eq_request_of_reader hread
    exact hold i pc hi

/-- **Serving is kept** by every step of the bridge. -/
theorem State.Serving.step (hs : s.Serving cfg) (hreach : (bridge cfg).Reachable s)
    (h : bridgeStep cfg s a = some s') : s'.Serving cfg := by
  have hblank : s.world.conns.cell s.world.conns.next = .blank :=
    (kept_of_reachable hreach).blank _ le_rfl
  cases bridgeStep_move h with
  -- what happens to a connection from outside is not in its history
  | @arrive c message _ =>
      refine hs.of_eq rfl (funext fun d => ?_)
      by_cases hd : d = c
      · subst hd
        simp [World.history, Conn.arrive]
      · simp [World.history, Store.set_cell_of_ne _ _ hd]
  | @setSocket c socket _ =>
      refine hs.of_eq rfl (funext fun d => ?_)
      by_cases hd : d = c
      · subst hd
        simp [World.history]
      · simp [World.history, Store.set_cell_of_ne _ _ hd]
  | tick _ => exact hs.of_eq rfl rfl
  | request hr => exact hs.request (by rw [hr])
  | aclose =>
      have hstill := startClose_still s.world
      refine ⟨fun i r pc hi => ?_, fun i r pc hi => ?_, fun r hr => ?_⟩
      · rcases getElem?_concat_eq_some hi with hi | ⟨_, heq⟩
        · exact hs.numbered i r pc hi
        · cases heq
      · rw [hstill.history]
        rcases getElem?_concat_eq_some hi with hi | ⟨_, heq⟩
        · exact hs.reception i r pc hi
        · cases heq
      · rw [hstill.history]
        refine hs.strangers r fun j pc hj => hr j pc ?_
        obtain ⟨hlt, _⟩ := List.getElem?_eq_some_iff.mp hj
        rwa [List.getElem?_append_left hlt]
  | run hi hmove => exact hs.run (nodup_holders hreach) hblank hi hmove

end Serving

/-! ### Runs -/

/-- What is delivered in a run that leads to `s`.

* The messages taken from a connection and those that wait there are those that
  arrived on it, in that order.
* What a request received is a run of consecutive messages of one connection.
  Those in `got` were formatted and yielded to it in that order; the last may not
  have been. Nothing follows the message that completes the response, and a request
  that ends well was given it.
* Nothing is delivered to a request that did not come in. -/
structure Delivered (cfg : Config) (l : List (State × Action)) (s : State) : Prop where
  inOrder : ∀ c, s.world.settled c = arrived c l
  served : ∀ (i : ℕ) (r : Request) (pc : RequestPc), s.tasks[i]? = some (.request r pc) →
    ∃ c got pending after, ServedOn cfg r s.world.history c got pending after ∧
      (∃ earlier later,
        arrived c l = earlier ++ (got ++ pending.toList).map Arrival.message ++ later) ∧
      (pc = .finished none → pending = none ∧ ∃ a id, got.getLast? = some a ∧
        completedId cfg.runtime.depth a.message = some id)
  strangers : ∀ r : Request, (∀ (i : ℕ) (pc : RequestPc), s.tasks[i]? ≠ some (.request r pc)) →
    ∀ c, Unserved r (s.world.history c)

/-- What a request has received, wherever it is. -/
lemma RequestPc.Reception.served {pc : RequestPc} {h : ℕ → List Event}
    (hpc : pc.Reception cfg r h) :
    ∃ c got pending after, ServedOn cfg r h c got pending after ∧
      (pc = .finished none → pending = none ∧ ∃ a id, got.getLast? = some a ∧
        completedId cfg.runtime.depth a.message = some id) := by
  cases pc with
  | head o a =>
      obtain ⟨got, hs⟩ := hpc
      exact ⟨_, _, _, _, hs, by simp⟩
  | suspended o a =>
      obtain ⟨got, hs⟩ := hpc
      exact ⟨_, _, _, _, hs, by simp⟩
  | receiving o =>
      obtain ⟨got, hs, _⟩ := hpc
      exact ⟨_, _, _, _, hs, by simp⟩
  | closing raised =>
      obtain ⟨c, got, pending, after, hs⟩ := hpc
      exact ⟨_, _, _, _, hs, by simp⟩
  | finished raised =>
      cases raised with
      | some raised =>
          obtain ⟨c, got, pending, after, hs⟩ := hpc
          exact ⟨_, _, _, _, hs, by simp⟩
      | none =>
          obtain ⟨c, got, a, id, after, hs, hid⟩ := hpc
          exact ⟨_, _, _, _, hs, fun _ => ⟨rfl, a, id, by simp, hid⟩⟩
  | _ => exact ⟨0, [], none, [], servedOn_of_unserved cfg hpc 0, by simp⟩

lemma takes_served (r : Request) (got : List Arrival) :
    (served r got).filterMap Event.takes? = got := by
  induction got with
  | nil => rfl
  | cons a got ih =>
      rw [served, List.flatMap_cons, List.filterMap_append]
      exact congrArg (a :: ·) ih

/-- The messages that were taken from a connection are those of its history. -/
lemma takes_history (w : World) (c : ℕ) :
    (w.history c).filterMap Event.takes? = (w.conns.cell c).log.filterMap Event.takes? := by
  rw [World.history, List.filterMap_filter]
  refine List.filterMap_congr fun e _ => ?_
  cases e <;> rfl

/-- The messages of a request stand together among those of the connection. -/
lemma ServedOn.segment {c : ℕ} {got : List Arrival} {pending : Option Arrival}
    {after : List Event} (hs : ServedOn cfg r w.history c got pending after) :
    ∃ earlier later,
      w.settled c = earlier ++ (got ++ pending.toList).map Arrival.message ++ later := by
  obtain ⟨before, _, hsplit⟩ := hs.split
  have hpending : (pending.toList.map (Event.received r)).filterMap Event.takes?
      = pending.toList := by
    cases pending <;> rfl
  refine ⟨(before.filterMap Event.takes?).map Arrival.message,
    (after.filterMap Event.takes? ++ (w.conns.cell c).unread).map Arrival.message, ?_⟩
  rw [World.settled, ← takes_history, hsplit]
  simp only [List.filterMap_append, takes_served, hpending, List.map_append, List.append_assoc]

variable {s t : State} {a : Action} {l : List (State × Action)}

/-- What arrives on a connection is there, and nothing else changes what there is. -/
lemma bridgeStep_settled (hreach : (bridge cfg).Reachable s)
    (h : bridgeStep cfg s a = some t) (c : ℕ) :
    t.world.settled c = s.world.settled c ++ (a.arrives? c).toList := by
  have hblank : s.world.conns.cell s.world.conns.next = .blank :=
    (kept_of_reachable hreach).blank _ le_rfl
  cases bridgeStep_move h with
  | @arrive d message _ =>
      by_cases hd : c = d
      · subst hd
        simp [World.settled, Conn.arrive, Action.arrives?]
      · simp [World.settled, Store.set_cell_of_ne _ _ hd, Action.arrives?, Ne.symm hd]
  | @setSocket d socket _ =>
      by_cases hd : c = d
      · subst hd
        simp [World.settled, Action.arrives?]
      · simp [World.settled, Store.set_cell_of_ne _ _ hd, Action.arrives?]
  | tick _ => simp [World.settled, Action.arrives?]
  | request _ => simp [(startRequest_still cfg s.world _).settled, Action.arrives?]
  | aclose => simp [(startClose_still s.world).settled, Action.arrives?]
  | run _ hmove => simp [taskMove_settled hmove hblank, Action.arrives?]

lemma settled_of_path (h : (bridge cfg).Path (bridge cfg).init l s) (c : ℕ) :
    s.world.settled c = arrived c l := by
  generalize hinit : (bridge cfg).init = s₀ at h
  induction h with
  | nil => subst hinit; rfl
  | @snoc s t k a hprev hstep ih =>
      subst hinit
      rw [bridgeStep_settled ⟨k, hprev⟩ hstep, ih, arrived, arrived, List.filterMap_append]
      cases hc : a.arrives? c <;> simp [hc]

/-- Serving holds in every reachable state. -/
theorem serving_of_reachable (h : (bridge cfg).Reachable s) : s.Serving cfg := by
  obtain ⟨l, h⟩ := h
  generalize hinit : (bridge cfg).init = s₀ at h
  induction h with
  | nil =>
      subst hinit
      refine ⟨fun i r pc hi => ?_, fun i r pc hi => ?_, fun r _ c => unserved_nil r⟩
      · exact absurd hi (by simp [bridge])
      · exact absurd hi (by simp [bridge])
  | @snoc s t k a hprev hstep ih =>
      subst hinit
      exact ih.step ⟨k, hprev⟩ hstep

/-- **Delivery**, along every run of the bridge: no message is lost, doubled or
reordered, and none goes to two requests. -/
theorem delivered_of_path (h : (bridge cfg).Path (bridge cfg).init l s) :
    Delivered cfg l s := by
  have hserving := serving_of_reachable ⟨l, h⟩
  refine ⟨settled_of_path h, fun i r pc hi => ?_, hserving.strangers⟩
  obtain ⟨c, got, pending, after, hs, hend⟩ := (hserving.reception i r pc hi).served
  obtain ⟨earlier, later, hsegment⟩ := hs.segment
  exact ⟨c, got, pending, after, hs, ⟨earlier, later, (settled_of_path h c).symm.trans hsegment⟩,
    hend⟩

/-- Delivery, for a run in which a response is streamed and completed. -/
theorem delivered_sampleRelease :
    ∃ s l, (bridge sampleConfig).Path (bridge sampleConfig).init l s ∧
      arrived 0 l = [sampleCompleted] ∧ Delivered sampleConfig l s := by
  obtain ⟨s, hs⟩ : ∃ s, (bridge sampleConfig).exec (bridge sampleConfig).init sampleRelease
      = some s := Option.isSome_iff_exists.mp (by decide +kernel)
  have hpath := System.Path.of_exec hs
  exact ⟨s, _, hpath, by decide +kernel, delivered_of_path hpath⟩

end CodexResetProxy
