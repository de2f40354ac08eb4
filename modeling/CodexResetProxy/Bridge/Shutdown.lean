import CodexResetProxy.Bridge.Leaks
import CodexResetProxy.Bridge.PoolChanges

/-!
What is left after `aclose`: no idle connection, and nothing open that was ever
in the pool or on its way back to it, as long as no release comes late.

`aclose` empties the pool once. A background task whose probe times out after
that puts its connection into the pool of a bridge that is shut down, and
nobody closes it.

* `Phase.shared` only grows along a record (`Run.shared_mono`).
* `idle_of_path`: without late releases the pool stays empty.
* `drained_of_path`: what `aclose` leaves behind, along such runs.
-/

namespace CodexResetProxy

open Custody Transition Protocol

variable {cfg : Config}

/-! ### Shared connections -/

/-- The connections a background task is releasing. -/
def Task.releases : Task → List ℕ
  | .background _ o pc => pc.holds o
  | _ => []

/-- The connections in the pool or being released to it. -/
def State.shared (s : State) : List ℕ := s.tasks.flatMap Task.releases ++ s.idle

namespace Protocol

variable {key key' : WebSocketPoolKey}

lemma Step.shared {p q : Phase} {e : Event} (h : Step cfg key p e q) (hp : p.shared = true) :
    q.shared = true := by
  cases h <;> simp_all [Phase.shared, Stage.releasing]

/-- **What was shared stays shared**, as the record grows. -/
theorem Run.shared_mono {log log' : List Event} {p q : Phase} (h : Run cfg key log p)
    (h' : Run cfg key' log' q) (hpre : log <+: log') (hp : p.shared = true) :
    q.shared = true := by
  induction h' generalizing p with
  | opened =>
      obtain rfl := List.prefix_nil.mp hpre
      have hopened : Run cfg key' [] (.live false .ready) := .opened
      have hstart : p = .live false .ready := h.unique hopened
      rwa [hstart] at hp
  | @snoc log' p' q e hrun hstep ih =>
      rcases List.prefix_concat_iff.mp hpre with rfl | hpre
      · rwa [h.unique (hrun.snoc hstep)] at hp
      · exact hstep.shared (ih h hpre hp)

end Protocol

/-- A shared connection is held in a shared phase. -/
lemma exists_of_mem_shared (cfg : Config) {s : State} {c : ℕ} (hc : c ∈ s.shared) :
    ∃ tok, (c, tok) ∈ s.own cfg ∧ tok.phase.shared = true := by
  have hidle : ∀ entries : List Idle, c ∈ entries.map Idle.conn →
      ∃ tok, (c, tok) ∈ entries.map Idle.token ∧ tok.phase.shared = true := by
    intro entries hm
    obtain ⟨entry, hentry, rfl⟩ := List.mem_map.mp hm
    exact ⟨_, List.mem_map_of_mem hentry, rfl⟩
  rcases List.mem_append.mp hc with hc | hc
  · obtain ⟨task, htask, hc⟩ := List.mem_flatMap.mp hc
    suffices ∃ tok, (c, tok) ∈ task.view cfg ∧ tok.phase.shared = true by
      obtain ⟨tok, htok, hshared⟩ := this
      exact ⟨tok, List.mem_append_left _ (List.mem_flatMap.mpr ⟨task, htask, htok⟩), hshared⟩
    cases task with
    | background r o pc =>
        cases pc with
        | scheduled id | probing =>
            obtain rfl := List.mem_singleton.mp hc
            exact ⟨_, List.mem_singleton_self _, by simp [Phase.shared, Stage.releasing]⟩
        | acknowledging id written =>
            obtain rfl := List.mem_singleton.mp hc
            cases written <;>
              exact ⟨_, List.mem_singleton_self _, by simp [Phase.shared, Stage.releasing]⟩
        | evicting stale => exact hidle stale hc
        | _ => exact absurd hc List.not_mem_nil
    | _ => exact absurd hc List.not_mem_nil
  · obtain ⟨tok, htok, hshared⟩ := hidle _ hc
    exact ⟨tok, List.mem_append_right _ htok, hshared⟩

/-! ### The pool after `aclose` -/

/-- What was empty is empty. -/
def World.StaysEmpty (w w' : World) : Prop := w.pool.entries = [] → w'.pool.entries = []

/-- After `aclose` was called, the pool is empty. -/
lemma entries_startClose (w : World) : (startClose w).1.pool.entries = [] := by
  rw [startClose]
  dsimp only
  rw [(closeIdle_eq _ _).1]
  exact Pool.entries_empty

/-- Without a late release, an empty pool stays empty. -/
theorem idle_step {s s' : State} {a : Action} (h : bridgeStep cfg s a = some s')
    (hback : a.putsBack s = false) : s.world.StaysEmpty s'.world := by
  intro hempty
  obtain ⟨-, hchange⟩ := bridgeStep_shifts h fun hput => absurd hput (by simp [hback])
  obtain ⟨released, hchange, hsame⟩ := hchange []
  exact hchange.entries_eq_nil (hsame hback) hempty

/-! ### What `aclose` leaves behind -/

/-- Nothing is left of the connections that were shared in a run: none is idle,
and all are closed. -/
structure Drained (l : List (State × Action)) (s : State) : Prop where
  idle : s.idle = []
  closed : ∀ x ∈ l, ∀ c ∈ x.1.shared, .exited ∈ (s.world.conns.cell c).log

/-- Where nothing is idle and all tasks have ended, nothing is held. -/
lemma own_eq_nil {s : State} (hidle : s.idle = []) (hended : ∀ task ∈ s.tasks, task.ended = true) :
    s.own cfg = [] := by
  have hholds : ∀ task ∈ s.tasks, task.holds = [] := by
    intro task htask
    refine List.eq_nil_iff_forall_not_mem.mpr fun c hc => ?_
    exact absurd (hended task htask) (by simp [Task.ended_eq_false hc])
  have hholders : s.holders = [] := by
    rw [State.holders, hidle, List.append_nil]
    exact List.flatMap_eq_nil_iff.mpr hholds
  rw [State.holders_eq cfg] at hholders
  exact List.map_eq_nil_iff.mp hholders

/-- The record of a connection that somebody holds only grows. -/
lemma log_isPrefix {s t : State} {l : List (State × Action)} (hs : (bridge cfg).Reachable s)
    (h : (bridge cfg).Path s l t) (c : ℕ) :
    (s.world.conns.cell c).log <+: (t.world.conns.cell c).log := by
  refine (obeys_free cfg l).cell_of_kept h (kept_of_reachable hs)
    (I := fun x => (s.world.conns.cell c).log <+: x.log) ?_ ?_ c (List.prefix_refl _)
  · intro x y hx hstep
    cases hstep with
    | opened => exact hx
    | did _ _ _ => exact hx.trans (List.prefix_append _ _)
    | took _ _ _ => exact hx.trans (List.prefix_append _ _)
  · intro x y hx hdrift
    cases hdrift <;> exact hx

/-- **A shared connection that nobody holds at the end is closed**, if no shared
connection was abandoned. -/
theorem closed_of_shared {s : State} {l : List (State × Action)}
    (h : (bridge cfg).Path (bridge cfg).init l s)
    (hl : ∀ x ∈ l, ∀ y ∈ x.2.abandons cfg x.1, y.2 = false) (hown : s.own cfg = [])
    {x : State × Action} (hx : x ∈ l) {c : ℕ} (hc : c ∈ x.1.shared) :
    .exited ∈ (s.world.conns.cell c).log := by
  obtain ⟨l₁, l₂, rfl⟩ := List.append_of_mem hx
  obtain ⟨u, h₁, hstep, h₂⟩ := h.split
  obtain ⟨tok, htok, hshared⟩ := exists_of_mem_shared cfg hc
  -- the connection was shared at that step, and stays so
  have hthen := run_of_mem_own ⟨l₁, h₁⟩ htok
  have hlog := log_isPrefix ⟨l₁, h₁⟩ ((System.Path.single hstep).trans h₂) c
  have hlater : ∀ {k : WebSocketPoolKey} {p : Phase},
      Run cfg k (s.world.conns.cell c).log p → p.shared = true :=
    fun hrun => hthen.shared_mono hrun hlog hshared
  have hobeys : Obeys cfg False (fun b => b = false) (l₁ ++ x :: l₂) := ⟨False.elim, hl⟩
  have hkept := hobeys.kept h
  have haccounted := hobeys.accounted h
  have hlt : c < s.world.conns.next := by
    by_contra hge
    have hblank : s.world.conns.cell c = .blank := hkept.blank c (Nat.le_of_not_lt hge)
    have hnever := hlater (k := tok.key) (p := .live false .ready) (by rw [hblank]; exact .opened)
    simp [Phase.shared, Stage.releasing] at hnever
  -- it is held no more, so its last holder has closed it
  rcases haccounted c hlt with hheld | ⟨tok', hfinished, _, hrun⟩
  · exact absurd hheld (by simp [hown])
  · rcases hfinished with hgone | hunshared
    · rw [hgone] at hrun
      exact hrun.exited_mem
    · exact absurd (hlater hrun) (by simp [hunshared])

/-- **Shutdown drains the pool**: in every run in which no step abandons a
connection that is or was shared, and no release comes after `aclose`, nothing is
left when all tasks have ended. -/
theorem drained_of_path {s t : State} {l₁ l₂ : List (State × Action)}
    (h : (bridge cfg).Path (bridge cfg).init (l₁ ++ (t, .aclose) :: l₂) s)
    (hl : ∀ x ∈ l₁ ++ (t, .aclose) :: l₂, ∀ y ∈ x.2.abandons cfg x.1, y.2 = false)
    (hback : ∀ x ∈ l₂, x.2.putsBack x.1 = false)
    (hended : ∀ task ∈ s.tasks, task.ended = true) :
    Drained (l₁ ++ (t, .aclose) :: l₂) s := by
  have hidle : s.idle = [] := by
    obtain ⟨u, _, hclose, h₂⟩ := h.split
    have hstart : u.world.pool.entries = [] := by
      obtain rfl := Option.some.inj hclose
      exact entries_startClose t.world
    have hend : s.world.pool.entries = [] :=
      h₂.invariant_of_steps (I := fun s => s.world.pool.entries = [])
        (P := fun s a => a.putsBack s = false)
        (fun s a s' hs hP hstep => idle_step hstep hP hs) hstart hback
    rw [State.idle, hend, List.map_nil]
  exact ⟨hidle, fun x hx c hc => closed_of_shared h hl (own_eq_nil hidle hended) hx hc⟩

/-! ### Two shutdowns -/

/-- `aclose` is called between two parts of a run; what is decided of the steps
of the whole and of the second part, and of the end. -/
def shutdown (cfg : Config) (as bs : List Action)
    (P : List (State × Action) → List (State × Action) → State → Bool) : Option Bool :=
  ((bridge cfg).exec (bridge cfg).init as).bind fun t =>
    ((bridge cfg).step t .aclose).bind fun u =>
      ((bridge cfg).exec u bs).map fun s =>
        let after := (bridge cfg).steps u bs
        P ((bridge cfg).steps (bridge cfg).init as ++ (t, .aclose) :: after) after s

lemma exists_of_shutdown {as bs : List Action}
    {P : List (State × Action) → List (State × Action) → State → Bool}
    (h : shutdown cfg as bs P = some true) :
    ∃ l₁ t l₂ s, (bridge cfg).Path (bridge cfg).init (l₁ ++ (t, .aclose) :: l₂) s ∧
      P (l₁ ++ (t, .aclose) :: l₂) l₂ s = true := by
  obtain ⟨t, ht, h⟩ := Option.bind_eq_some_iff.mp h
  obtain ⟨u, hu, h⟩ := Option.bind_eq_some_iff.mp h
  obtain ⟨s, hs, hP⟩ := Option.map_eq_some_iff.mp h
  have hrun := ((System.Path.of_exec ht).snoc hu).trans (System.Path.of_exec hs)
  rw [List.append_assoc, List.singleton_append] at hrun
  exact ⟨_, t, _, s, hrun, hP⟩

/-- A pool with an idle connection is drained. -/
theorem drained_sampleRelease :
    ∃ l₁ t l₂ s, (bridge sampleConfig).Path (bridge sampleConfig).init
      (l₁ ++ (t, .aclose) :: l₂) s ∧ Drained (l₁ ++ (t, .aclose) :: l₂) s := by
  have hrun : shutdown sampleConfig sampleRelease [.run 2 .returned] (fun l l₂ s =>
      (l.all fun x => (x.2.abandons sampleConfig x.1).all fun y => y.2 = false) &&
        (l₂.all fun x => x.2.putsBack x.1 = false) && s.tasks.all Task.ended) = some true := by
    decide +kernel
  obtain ⟨l₁, t, l₂, s, hpath, hcond⟩ := exists_of_shutdown hrun
  simp only [Bool.and_eq_true, List.all_eq_true, decide_eq_true_eq] at hcond
  obtain ⟨⟨hl, hback⟩, hended⟩ := hcond
  exact ⟨l₁, t, l₂, s, hpath, drained_of_path hpath hl hback hended⟩

/-- **A late release** puts its connection into the pool after `aclose`: all
tasks end, and it stays there, open. -/
theorem not_drained_lateRelease :
    ∃ l₁ t l₂ s, (bridge sampleConfig).Path (bridge sampleConfig).init
      (l₁ ++ (t, .aclose) :: l₂) s ∧ s.tasks.all Task.ended = true ∧ s.idle = [0] ∧
        .exited ∉ (s.world.conns.cell 0).log ∧ ¬Drained (l₁ ++ (t, .aclose) :: l₂) s := by
  have hrun : shutdown sampleConfig sampleProbing [.run 1 (.raised .timeout)] (fun _ _ s =>
      decide (s.tasks.all Task.ended = true ∧ s.idle = [0] ∧
        .exited ∉ (s.world.conns.cell 0).log)) = some true := by
    decide +kernel
  obtain ⟨l₁, t, l₂, s, hpath, hcond⟩ := exists_of_shutdown hrun
  obtain ⟨hended, hidle, hexit⟩ := of_decide_eq_true hcond
  refine ⟨l₁, t, l₂, s, hpath, hended, hidle, hexit, fun h => ?_⟩
  exact absurd h.idle (by simp [hidle])

end CodexResetProxy
