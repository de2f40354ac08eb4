import CodexResetProxy.Bridge.Isolation

/-!
No connection leaks: every connection that was opened is closed, idle, or held by
a task that has not ended, exactly as long as no step abandons one.

A step abandons a connection where the source has no clause that would close it:
a task is cancelled in an `await` that is not inside a `finally`, the first
`recv` raises what no clause catches, the response head cannot be written and
the generator never starts, or the message that the probe returns cannot be
logged (`Task.abandons`). What is abandoned stays so, because nobody knows the
connection any more (`lost_step`).

* `abandoned_step`: what a step abandons is lost after it.
* `noLeak_iff`: there is no leak after a run if and only if no step of it
  abandons a connection.
-/

namespace CodexResetProxy

open Custody Transition Protocol

variable {cfg : Config}

/-- The task has ended. -/
def Task.ended : Task → Bool
  | .request _ (.finished _) => true
  | .background _ _ .finished => true
  | .closer .finished => true
  | _ => false

/-- Every connection is closed, idle, or held by a task that has not ended. -/
def NoLeak (s : State) : Prop :=
  ∀ c < s.world.conns.next, .exited ∈ (s.world.conns.cell c).log ∨ c ∈ s.idle ∨
    ∃ task ∈ s.tasks, task.ended = false ∧ c ∈ task.holds

lemma Task.ended_eq_false {task : Task} {c : ℕ} (h : c ∈ task.holds) : task.ended = false := by
  cases task with
  | request r pc =>
      cases pc with
      | finished raised => exact absurd h List.not_mem_nil
      | _ => rfl
  | background r o pc =>
      cases pc with
      | finished => exact absurd h List.not_mem_nil
      | _ => rfl
  | closer pc =>
      cases pc with
      | finished => exact absurd h List.not_mem_nil
      | closing rest => rfl

lemma noLeak_iff_holders (s : State) : NoLeak s ↔
    ∀ c < s.world.conns.next, .exited ∈ (s.world.conns.cell c).log ∨ c ∈ s.holders := by
  refine forall₂_congr fun c _ => or_congr_right ?_
  rw [State.holders, List.mem_append, List.mem_flatMap, or_comm]
  refine or_congr_left (exists_congr fun task => and_congr_right fun _ => ?_)
  exact ⟨fun h => h.2, fun h => ⟨Task.ended_eq_false h, h⟩⟩

/-! ### What is lost -/

/-- Nobody holds the connection, and it was not exited. -/
structure Lost (s : State) (c : ℕ) : Prop where
  opened : c < s.world.conns.next
  unheld : c ∉ s.holders
  unexited : .exited ∉ (s.world.conns.cell c).log

lemma Lost.not_noLeak {s : State} {c : ℕ} (h : Lost s c) : ¬NoLeak s := by
  rw [noLeak_iff_holders]
  exact fun hs => (hs c h.opened).elim h.unexited h.unheld

/-- **What is lost stays lost.** -/
theorem lost_step {s s' : State} {a : Action} {c : ℕ} (h : bridgeStep cfg s a = some s')
    (hc : Lost s c) : Lost s' c := by
  obtain ⟨hlt, hnot, hexit⟩ := hc
  rw [State.holders_eq cfg] at hnot
  have hdrift : ∀ x y : Conn, .exited ∉ x.log → Drift x y → .exited ∉ y.log := by
    intro x y hx hd
    cases hd <;> exact hx
  obtain ⟨hlt', hnot', hexit'⟩ :=
    (bridgeStep_turn_free h).cell_of_not_held (I := fun x => .exited ∉ x.log) hdrift hlt hnot hexit
  rw [← State.holders_eq cfg] at hnot'
  exact ⟨hlt', hnot', hexit'⟩

/-- A step that abandons connections leaves everything else as it was: at most a
message is taken. -/
structure Untouched (w w' : World) : Prop where
  pool : w'.pool = w.pool
  next : w'.conns.next = w.conns.next
  exits : ∀ c, .exited ∉ (w.conns.cell c).log → .exited ∉ (w'.conns.cell c).log

lemma Untouched.refl (w : World) : Untouched w w := ⟨rfl, rfl, fun _ h => h⟩

lemma untouched_take (w : World) (c : ℕ) (a : Arrival) (rest : List Arrival) :
    Untouched w (w.take c (.drained a) rest) := by
  refine ⟨rfl, rfl, fun d hd => ?_⟩
  by_cases he : d = c
  · subst he
    show _ ∉ ((w.conns.set d _).cell d).log
    rw [Store.set_cell_self]
    show _ ∉ (w.conns.cell d).log ++ [.drained a]
    simpa using hd
  · show _ ∉ ((w.conns.set c _).cell d).log
    rw [Store.set_cell_of_ne _ _ he]
    exact hd

variable {w w' : World} {outcome : Outcome} {x : ℕ × Bool}

/-- A cancelled request held what it abandons. -/
lemma RequestPc.mem_holds_of_abandons {pc : RequestPc} (hx : x ∈ pc.abandons cfg .cancelled) :
    x.1 ∈ pc.holds := by
  cases pc with
  | checkingOut attempt selected stale =>
      obtain ⟨entry, hentry, rfl⟩ := List.mem_map.mp hx
      exact List.mem_map_of_mem hentry
  | sending o written | awaitingFirst o | head o a =>
      obtain rfl := List.mem_singleton.mp hx
      exact List.mem_singleton_self _
  | _ => exact absurd hx List.not_mem_nil

lemma requestMove_abandons {r : Request} {pc : RequestPc} {p : World × RequestPc}
    {new : List Task} (h : RequestMove cfg w r pc outcome p new)
    (hx : x ∈ pc.abandons cfg outcome) :
    Untouched w p.1 ∧ x.1 ∈ pc.holds ∧ p.2.holds = [] ∧ new = [] := by
  cases h with
  | cancelled hpc => exact ⟨.refl w, pc.mem_holds_of_abandons hx, rfl, rfl⟩
  | firstUncaught _ herr =>
      rw [RequestPc.abandons, if_pos herr] at hx
      obtain rfl := List.mem_singleton.mp hx
      exact ⟨.refl w, List.mem_singleton_self _, rfl, rfl⟩
  | headFailed =>
      obtain rfl := List.mem_singleton.mp hx
      exact ⟨.refl w, List.mem_singleton_self _, rfl, rfl⟩
  | firstFailed _ herr => exact absurd hx (by simp [RequestPc.abandons, herr])
  | staleClosed hquiet | contextClosed hquiet | attemptClosed hquiet | closed hquiet =>
      cases hquiet <;> exact absurd hx List.not_mem_nil
  | yieldBroken hbreaks | recvBroken _ hbreaks =>
      cases hbreaks <;> exact absurd hx List.not_mem_nil
  | _ => exact absurd hx List.not_mem_nil

/-- A cancelled background task held what it abandons. -/
lemma BackgroundPc.mem_holds_of_abandons {o : Opened} {pc : BackgroundPc}
    (hx : x ∈ pc.abandons cfg w o .cancelled) : x.1 ∈ pc.holds o := by
  cases pc with
  | scheduled id | acknowledging id written | probing =>
      obtain rfl := List.mem_singleton.mp hx
      exact List.mem_singleton_self _
  | evicting stale =>
      obtain ⟨entry, hentry, rfl⟩ := List.mem_map.mp hx
      exact List.mem_map_of_mem hentry
  | _ => exact absurd hx List.not_mem_nil

lemma backgroundMove_abandons {r : Request} {o : Opened} {pc : BackgroundPc}
    {p : World × BackgroundPc} (h : BackgroundMove cfg w r o pc outcome p)
    (hx : x ∈ pc.abandons cfg w o outcome) :
    Untouched w p.1 ∧ x.1 ∈ pc.holds o ∧ p.2.holds o = [] := by
  cases h with
  | cancelled hpc => exact ⟨.refl w, pc.mem_holds_of_abandons hx, rfl⟩
  | @pending a rest hunread =>
      simp only [BackgroundPc.abandons, hunread, List.head?_cons] at hx
      rw [discardPending]
      split
      · rename_i he
        simp [he] at hx
      · rename_i e he
        obtain rfl : x = (o.conn, true) := by simpa [he] using hx
        exact ⟨untouched_take w o.conn a rest, List.mem_singleton_self _, rfl⟩
  | evicted hquiet | closed hquiet => cases hquiet <;> exact absurd hx List.not_mem_nil
  | _ => exact absurd hx List.not_mem_nil

lemma closerMove_abandons {pc : CloserPc} {p : World × CloserPc}
    (h : CloserMove w pc outcome p) (hx : x ∈ pc.abandons outcome) :
    Untouched w p.1 ∧ x.1 ∈ pc.holds ∧ p.2.holds = [] := by
  cases h with
  | closed hquiet => cases hquiet <;> exact absurd hx List.not_mem_nil
  | cancelled =>
      obtain ⟨entry, hentry, rfl⟩ := List.mem_map.mp hx
      exact ⟨.refl w, List.mem_map_of_mem hentry, rfl⟩

/-- A step that abandons a connection does nothing but end its task. -/
lemma taskMove_abandons {task task' : Task} {new : List Task}
    (h : TaskMove cfg w task outcome (w', task') new)
    (hx : x ∈ task.abandons cfg w outcome) :
    Untouched w w' ∧ x.1 ∈ task.holds ∧ task'.holds = [] ∧ new = [] := by
  cases h with
  | request hmove => exact requestMove_abandons hmove hx
  | background hmove =>
      obtain ⟨hsame, hheld, hnone⟩ := backgroundMove_abandons hmove hx
      exact ⟨hsame, hheld, hnone, rfl⟩
  | closer hmove =>
      obtain ⟨hsame, hheld, hnone⟩ := closerMove_abandons hmove hx
      exact ⟨hsame, hheld, hnone, rfl⟩

/-- The holders of a state, with those of one task in front. -/
lemma holders_perm {s : State} {i : ℕ} {task : Task} (hi : s.tasks[i]? = some task) :
    s.holders.Perm (task.holds ++ ((s.tasks.eraseIdx i).flatMap Task.holds ++ s.idle)) := by
  obtain ⟨hlt, rfl⟩ := List.getElem?_eq_some_iff.mp hi
  have htasks : (s.tasks.flatMap Task.holds).Perm
      (s.tasks[i].holds ++ (s.tasks.eraseIdx i).flatMap Task.holds) :=
    (List.getElem_cons_eraseIdx_perm hlt).symm.flatMap_right Task.holds
  rw [State.holders, ← List.append_assoc]
  exact htasks.append_right _

/-- **What a step abandons is lost** after it. -/
theorem abandoned_step {s s' : State} {a : Action} (hs : (bridge cfg).Reachable s)
    (h : bridgeStep cfg s a = some s') (hx : x ∈ a.abandons cfg s) : Lost s' x.1 := by
  cases bridgeStep_move h with
  | @run i outcome task task' w' new hi hmove =>
      have hx' : x ∈ task.abandons cfg s.world outcome := by
        simpa [Action.abandons, hi] using hx
      obtain ⟨hsame, hheld, hnone, rfl⟩ := taskMove_abandons hmove hx'
      have hholders := holders_perm hi
      have hmem : x.1 ∈ s.holders :=
        hholders.mem_iff.mpr (List.mem_append_left _ hheld)
      -- the task was the only holder, and holds nothing any more
      have hothers : x.1 ∉ (s.tasks.eraseIdx i).flatMap Task.holds ++ s.idle := by
        have hnodup := hholders.nodup_iff.mp (nodup_holders hs)
        exact fun hm => (List.nodup_append'.mp hnodup).2.2 hheld hm
      have hkept := kept_of_reachable hs
      obtain ⟨p, hp, hfst⟩ := List.mem_map.mp (State.holders_eq cfg s ▸ hmem)
      refine ⟨?_, fun hm => hothers ?_, hsame.exits _ fun hexit => ?_⟩
      · show x.1 < w'.conns.next
        rw [hsame.next, ← hfst]
        exact (hkept.held p hp).1
      · have hi' : (s.tasks.set i task')[i]? = some task' := by
          simp [(List.getElem?_eq_some_iff.mp hi).1]
        have hm' := (holders_perm (s := ⟨w', s.tasks.set i task' ++ []⟩) (i := i)
          (by rw [List.append_nil]; exact hi')).mem_iff.mp hm
        rw [hnone, List.nil_append, List.append_nil, List.eraseIdx_set_eq, State.idle,
          hsame.pool] at hm'
        exact hm'
      · obtain ⟨_, stage, hphase⟩ := s.live_own cfg p hp
        have hrun := (hkept.held p hp).2.2
        rw [hphase, hfst] at hrun
        exact hrun.exited_not_mem hexit
  | _ => exact absurd hx List.not_mem_nil

/-- What was abandoned in a run is lost at its end. -/
lemma lost_of_path {s t : State} {l : List (State × Action)} (hs : (bridge cfg).Reachable s)
    (h : (bridge cfg).Path s l t) {x : State × Action} (hx : x ∈ l) {y : ℕ × Bool}
    (hy : y ∈ x.2.abandons cfg x.1) : Lost t y.1 := by
  induction h with
  | nil => exact absurd hx List.not_mem_nil
  | @snoc t u l a hpath hstep ih =>
      rcases List.mem_append.mp hx with hx | hx
      · exact lost_step hstep (ih hx)
      · obtain rfl := List.mem_singleton.mp hx
        obtain ⟨l₀, hl₀⟩ := hs
        exact abandoned_step ⟨l₀ ++ l, hl₀.trans hpath⟩ hstep hy

/-- **No leak**: after a run from the start, every connection is closed, idle or
held by a task that has not ended, if and only if no step of the run abandoned
one. -/
theorem noLeak_iff {s : State} {l : List (State × Action)}
    (h : (bridge cfg).Path (bridge cfg).init l s) :
    NoLeak s ↔ ∀ x ∈ l, x.2.abandons cfg x.1 = [] := by
  constructor
  · intro hs x hx
    refine List.eq_nil_iff_forall_not_mem.mpr fun y hy => ?_
    exact (lost_of_path System.Reachable.init h hx hy).not_noLeak hs
  · intro hl
    have hobeys : Obeys cfg False (fun _ => False) l :=
      ⟨False.elim, fun x hx y hy => absurd hy (by simp [hl x hx])⟩
    rw [noLeak_iff_holders]
    intro c hc
    rcases hobeys.accounted h c hc with hheld | ⟨tok, hgone, _, hrun⟩
    · exact Or.inr (State.holders_eq cfg s ▸ hheld)
    · have hphase : tok.phase = .gone := hgone.resolve_right id
      rw [hphase] at hrun
      exact Or.inl hrun.exited_mem

/-- The response head of the first request cannot be written. -/
def headFailed : List Action := sampleOpening ++ [.run 0 (.raised (.os "ConnectionResetError"))]

/-- No leak, after a request that has put its connection back. -/
theorem noLeak_sampleRelease :
    ∃ s, (bridge sampleConfig).exec (bridge sampleConfig).init sampleRelease = some s ∧
      s.idle = [0] ∧ NoLeak s := by
  have hrun : ((bridge sampleConfig).exec (bridge sampleConfig).init sampleRelease).map
      State.idle = some [0] := by
    decide +kernel
  have hnone : ((bridge sampleConfig).steps (bridge sampleConfig).init sampleRelease).all
      (fun x => (x.2.abandons sampleConfig x.1).isEmpty) = true := by
    decide +kernel
  obtain ⟨s, hs, hidle⟩ := Option.map_eq_some_iff.mp hrun
  refine ⟨s, hs, hidle, (noLeak_iff (System.Path.of_exec hs)).mpr fun x hx => ?_⟩
  exact List.isEmpty_iff.mp (List.all_eq_true.mp hnone x hx)

/-- **A connection leaks** when the response head cannot be written: every task
has ended, and the connection is neither closed nor idle. -/
theorem not_noLeak_headFailed :
    ∃ s, (bridge sampleConfig).Reachable s ∧ s.tasks.all Task.ended = true ∧
      0 < s.world.conns.next ∧ .exited ∉ (s.world.conns.cell 0).log ∧ 0 ∉ s.idle ∧
        ¬NoLeak s := by
  have hrun : ((bridge sampleConfig).exec (bridge sampleConfig).init headFailed).map
      (fun s => decide (s.tasks.all Task.ended = true ∧ 0 < s.world.conns.next ∧
        .exited ∉ (s.world.conns.cell 0).log ∧ 0 ∉ s.holders)) = some true := by
    decide +kernel
  obtain ⟨s, hs, hlost⟩ := Option.map_eq_some_iff.mp hrun
  obtain ⟨hended, hopened, hexit, hnot⟩ := of_decide_eq_true hlost
  refine ⟨s, System.Reachable.of_exec hs, hended, hopened, hexit, fun hm => ?_, ?_⟩
  · exact hnot (List.mem_append_right _ hm)
  · exact Lost.not_noLeak ⟨hopened, hnot, hexit⟩

end CodexResetProxy
