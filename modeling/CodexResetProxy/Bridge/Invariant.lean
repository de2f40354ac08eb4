import CodexResetProxy.Bridge.Trades

/-!
The invariant of the bridge: every step is a turn of the parties that hold the
connections, so custody holds in every reachable state.

* `State.own`: the tokens of all tasks and of the pool.
* `bridgeStep_turn`: a step of the system is a turn of the discipline.
* `Obeys`: the conditions on the steps of a run (`Action.writesClean`,
  `Action.abandons`) under which it obeys the discipline.
* `Obeys.kept`, `Obeys.accounted`, `Obeys.cell`: what follows for runs.
-/

namespace CodexResetProxy

open Custody Transition Protocol

variable {cfg : Config} {strict : Prop} {spare : Bool → Prop}

variable (cfg) in
/-- All tokens. -/
def State.own (s : State) : List (ℕ × Token) :=
  s.tasks.flatMap (Task.view cfg) ++ s.world.pool.view

/-- The step does not write a request on a connection with unread messages. -/
def Action.writesClean (s : State) : Action → Bool
  | .run i outcome => s.tasks[i]?.all fun task => task.writesClean s.world outcome
  | _ => true

variable (cfg) in
/-- The connections that are abandoned in a step. -/
def Action.abandons (s : State) : Action → List (ℕ × Bool)
  | .run i outcome => s.tasks[i]?.elim [] fun task => task.abandons cfg s.world outcome
  | _ => []

/-! ### A step -/

/-- The last two parts of a list change places. -/
lemma perm_append_right_comm {α : Type*} (a b c : List α) :
    ((a ++ b) ++ c).Perm ((a ++ c) ++ b) := by
  rw [List.append_assoc, List.append_assoc]
  exact List.perm_append_comm.append_left a

/-- A new task trades beside all others. -/
lemma turn_of_new_task {w w' : World} (tasks : List Task) {task : Task}
    (h : BridgeTrade cfg strict spare (w.holding []) (w'.holding (task.view cfg))) :
    Turn (discipline cfg strict spare) (w.conns, State.own cfg ⟨w, tasks⟩)
      (w'.conns, State.own cfg ⟨w', tasks ++ [task]⟩) := by
  refine Turn.trade (F := tasks.flatMap (Task.view cfg)) h List.perm_append_comm ?_
  calc ((task.view cfg ++ w'.pool.view) ++ tasks.flatMap (Task.view cfg)).Perm
        (tasks.flatMap (Task.view cfg) ++ (task.view cfg ++ w'.pool.view)) :=
          List.perm_append_comm
    _ = State.own cfg ⟨w', tasks ++ [task]⟩ := by
          rw [State.own, List.flatMap_append, List.flatMap_singleton, List.append_assoc]

/-- A task trades beside the others. -/
lemma turn_of_task {w w' : World} {tasks new : List Task} {i : ℕ} {task task' : Task}
    (hi : tasks[i]? = some task)
    (h : BridgeTrade cfg strict spare (w.holding (task.view cfg))
      (w'.holding (task'.view cfg ++ new.flatMap (Task.view cfg)))) :
    Turn (discipline cfg strict spare) (w.conns, State.own cfg ⟨w, tasks⟩)
      (w'.conns, State.own cfg ⟨w', tasks.set i task' ++ new⟩) := by
  obtain ⟨hlt, rfl⟩ := List.getElem?_eq_some_iff.mp hi
  set others := (tasks.eraseIdx i).flatMap (Task.view cfg) with hothers
  have hbefore : (tasks.flatMap (Task.view cfg)).Perm (tasks[i].view cfg ++ others) :=
    (List.getElem_cons_eraseIdx_perm hlt).symm.flatMap_right (Task.view cfg)
  have hafter : ((tasks.set i task').flatMap (Task.view cfg)).Perm (task'.view cfg ++ others) :=
    (List.set_perm_cons_eraseIdx hlt task').flatMap_right (Task.view cfg)
  refine Turn.trade (F := others) h ?_ ?_
  · calc (State.own cfg ⟨w, tasks⟩).Perm ((tasks[i].view cfg ++ others) ++ w.pool.view) :=
          hbefore.append_right _
      _ |>.Perm ((tasks[i].view cfg ++ w.pool.view) ++ others) := perm_append_right_comm _ _ _
  · set news := new.flatMap (Task.view cfg) with hnews
    have hown : State.own cfg ⟨w', tasks.set i task' ++ new⟩
        = ((tasks.set i task').flatMap (Task.view cfg) ++ news) ++ w'.pool.view := by
      rw [State.own, List.flatMap_append]
    rw [hown]
    refine List.Perm.symm ?_
    calc (((tasks.set i task').flatMap (Task.view cfg) ++ news) ++ w'.pool.view).Perm
          (((task'.view cfg ++ others) ++ news) ++ w'.pool.view) :=
            (hafter.append_right _).append_right _
      _ |>.Perm (((task'.view cfg ++ news) ++ others) ++ w'.pool.view) :=
            (perm_append_right_comm _ _ _).append_right _
      _ |>.Perm (((task'.view cfg ++ news) ++ w'.pool.view) ++ others) :=
            perm_append_right_comm _ _ _

/-- **A step of the system** is a turn of the parties that hold the connections. -/
theorem bridgeStep_turn {s s' : State} {a : Action} (h : bridgeStep cfg s a = some s')
    (hstrict : strict → a.writesClean s) (hspare : ∀ x ∈ a.abandons cfg s, spare x.2) :
    Turn (discipline cfg strict spare) (s.world.conns, s.own cfg)
      (s'.world.conns, s'.own cfg) := by
  cases bridgeStep_move h with
  | @arrive c message hc => exact Turn.drift hc (.arrive _ message)
  | @setSocket c socket hc => exact Turn.drift hc (.setSocket _ socket)
  | tick _ =>
      exact Turn.trade (@Relation.ReflTransGen.refl _ _ (s.world.conns, [])) List.Perm.rfl
        List.Perm.rfl
  | request _ => exact turn_of_new_task s.tasks startRequest_trade
  | aclose => exact turn_of_new_task s.tasks startClose_trade
  | run hi hmove =>
      refine turn_of_task hi (taskMove_trade hmove (fun hs => ?_) fun x hx => ?_)
      · simpa [Action.writesClean, hi] using hstrict hs
      · exact hspare x (by simpa [Action.abandons, hi] using hx)

/-- Any step is a turn, if everything may be abandoned. -/
lemma bridgeStep_turn_free {s s' : State} {a : Action} (h : bridgeStep cfg s a = some s') :
    Turn (discipline cfg False fun _ => True) (s.world.conns, s.own cfg)
      (s'.world.conns, s'.own cfg) :=
  bridgeStep_turn h False.elim fun _ _ => trivial

/-! ### Runs -/

/-- The conditions under which a run obeys the discipline. -/
structure Obeys (cfg : Config) (strict : Prop) (spare : Bool → Prop)
    (l : List (State × Action)) : Prop where
  writesClean : strict → ∀ x ∈ l, x.2.writesClean x.1
  abandons : ∀ x ∈ l, ∀ y ∈ x.2.abandons cfg x.1, spare y.2

/-- Without conditions, a run obeys the discipline that lets everything be
abandoned. -/
lemma obeys_free (cfg : Config) (l : List (State × Action)) :
    Obeys cfg False (fun _ => True) l where
  writesClean := False.elim
  abandons := fun _ _ _ _ => trivial

variable {s t : State} {l : List (State × Action)}

/-- **The run rule of the bridge**: custody is kept along every run that obeys the
discipline, and so is everything that turns keep where custody holds. -/
theorem Obeys.invariant (hl : Obeys cfg strict spare l) (h : (bridge cfg).Path s l t)
    (hkept : Kept (discipline cfg strict spare) s.world.conns (s.own cfg))
    {I : Store Conn × List (ℕ × Token) → Prop} (hs : I (s.world.conns, s.own cfg))
    (hI : ∀ p q, Kept (discipline cfg strict spare) p.1 p.2 →
      Turn (discipline cfg strict spare) p q → I p → I q) :
    Kept (discipline cfg strict spare) t.world.conns (t.own cfg) ∧
      I (t.world.conns, t.own cfg) := by
  refine h.invariant_of_steps
    (I := fun s => Kept (discipline cfg strict spare) s.world.conns (s.own cfg) ∧
      I (s.world.conns, s.own cfg))
    (P := fun s a => (strict → a.writesClean s) ∧ ∀ y ∈ a.abandons cfg s, spare y.2)
    ?_ ⟨hkept, hs⟩ fun x hx => ⟨fun hst => hl.writesClean hst x hx, hl.abandons x hx⟩
  rintro s a t ⟨hkept, hs⟩ ⟨hclean, hspare⟩ hstep
  have hturn := bridgeStep_turn hstep hclean hspare
  exact ⟨hturn.kept hkept, hI _ _ hkept hturn hs⟩

lemma kept_init (cfg : Config) : Kept (discipline cfg strict spare)
    (bridge cfg).init.world.conns ((bridge cfg).init.own cfg) where
  nodup := List.nodup_nil
  held := fun _ hp => absurd hp List.not_mem_nil
  blank := fun _ _ => rfl

/-- **Custody holds** in every state of a run that obeys the discipline. -/
theorem Obeys.kept (hl : Obeys cfg strict spare l)
    (h : (bridge cfg).Path (bridge cfg).init l s) :
    Kept (discipline cfg strict spare) s.world.conns (s.own cfg) :=
  (hl.invariant h (kept_init cfg) (I := fun _ => True) trivial fun _ _ _ _ _ => trivial).1

/-- **Nothing is lost** along a run that obeys the discipline. -/
theorem Obeys.accounted (hl : Obeys cfg strict spare l)
    (h : (bridge cfg).Path (bridge cfg).init l s) :
    Accounted (discipline cfg strict spare) s.world.conns (s.own cfg) := by
  refine (hl.invariant h (kept_init cfg) (I := fun p => Accounted _ p.1 p.2) ?_ ?_).2
  · intro c hc
    exact absurd hc (Nat.not_lt_zero c)
  · intro p q hkept hturn hacc
    exact hturn.accounted hkept hacc

/-- What the discipline keeps of a connection holds from any state of custody on. -/
theorem Obeys.cell_of_kept (hl : Obeys cfg strict spare l) (h : (bridge cfg).Path s l t)
    (hkept : Kept (discipline cfg strict spare) s.world.conns (s.own cfg)) {I : Conn → Prop}
    (hmove : ∀ x y, I x → CellStep cfg strict x y → I y) (hdrift : ∀ x y, I x → Drift x y → I y)
    (c : ℕ) (hc : I (s.world.conns.cell c)) : I (t.world.conns.cell c) :=
  (hl.invariant h hkept (I := fun p => I (p.1.cell c)) hc fun _ _ hkept hturn hI =>
    hturn.cell hmove hdrift hkept c hI).2

/-- **What the discipline keeps** of a connection holds of every connection. -/
theorem Obeys.cell (hl : Obeys cfg strict spare l)
    (h : (bridge cfg).Path (bridge cfg).init l s) {I : Conn → Prop} (h0 : I .blank)
    (hmove : ∀ x y, I x → CellStep cfg strict x y → I y)
    (hdrift : ∀ x y, I x → Drift x y → I y) (c : ℕ) : I (s.world.conns.cell c) :=
  hl.cell_of_kept h (kept_init cfg) hmove hdrift c h0

/-! ### Reachable states -/

/-- Custody holds in every reachable state. -/
theorem kept_of_reachable (h : (bridge cfg).Reachable s) :
    Kept (discipline cfg False fun _ => True) s.world.conns (s.own cfg) := by
  obtain ⟨l, hl⟩ := h
  exact (obeys_free cfg l).kept hl

/-- What the protocol keeps of a connection holds in every reachable state. -/
theorem cell_of_reachable (h : (bridge cfg).Reachable s) {I : Conn → Prop} (h0 : I .blank)
    (hmove : ∀ x y, I x → CellStep cfg False x y → I y)
    (hdrift : ∀ x y, I x → Drift x y → I y) (c : ℕ) : I (s.world.conns.cell c) := by
  obtain ⟨l, hl⟩ := h
  exact (obeys_free cfg l).cell hl h0 hmove hdrift c

/-- **What is done on a connection** follows the protocol of its key. -/
theorem run_of_reachable (h : (bridge cfg).Reachable s) (c : ℕ) :
    ∃ p, Run cfg ((s.world.conns.cell c).key cfg) (s.world.conns.cell c).log p := by
  refine cell_of_reachable h (I := fun x => ∃ p, Run cfg (x.key cfg) x.log p)
    ⟨_, .opened⟩ ?_ ?_ c
  · intro x y _ hstep
    cases hstep with
    | opened => exact ⟨_, .opened⟩
    | did hrun _ _ => exact ⟨_, hrun⟩
    | took hrun _ _ => exact ⟨_, hrun⟩
  · intro x y hx hdrift
    cases hdrift <;> exact hx

/-- A connection that somebody holds is in the phase that its token says. -/
lemma run_of_mem_own (h : (bridge cfg).Reachable s) {c : ℕ} {tok : Token}
    (hp : (c, tok) ∈ s.own cfg) :
    Run cfg ((s.world.conns.cell c).key cfg) (s.world.conns.cell c).log tok.phase := by
  obtain ⟨hkey, hrun⟩ : (s.world.conns.cell c).key cfg = tok.key ∧
      Run cfg tok.key (s.world.conns.cell c).log tok.phase := ((kept_of_reachable h).held _ hp).2
  rw [hkey]
  exact hrun

end CodexResetProxy
