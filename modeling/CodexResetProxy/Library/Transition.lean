import Mathlib.Logic.Relation
import Mathlib.Tactic.Common

/-!
Labelled transition systems whose step is an executable partial function, and
the induction rules used for every property of a run.

* `System`: an initial state and `step : σ → α → Option σ`, `none` for an
  action that is not enabled; `exec` performs a list of actions.
* `Path`: a run together with the list of its steps, each recorded as the state
  before it and the action taken, so that a condition on steps is a condition
  on the members of that list.
* `Path.invariant_of_steps`: the step lemma gives the run lemma, for the runs
  whose steps meet a condition.
* `Path.of_exec`: an evaluated list of actions is a run.
-/

namespace Transition

variable {σ α : Type*}

/-- A transition system with a partial, executable step. -/
structure System (σ α : Type*) where
  init : σ
  step : σ → α → Option σ

namespace System

variable (M : System σ α)

/-- The actions of a list, performed one after the other. -/
def exec : σ → List α → Option σ
  | s, [] => some s
  | s, a :: as => (M.step s a).bind fun t => exec t as

@[simp] lemma exec_nil (s : σ) : M.exec s [] = some s := rfl

lemma exec_cons (s : σ) (a : α) (as : List α) :
    M.exec s (a :: as) = (M.step s a).bind fun t => M.exec t as := rfl

/-- The steps of a list of actions, up to the first that is not enabled. -/
def steps : σ → List α → List (σ × α)
  | _, [] => []
  | s, a :: as =>
      (s, a) :: match M.step s a with
        | some t => steps t as
        | none => []

/-- A run from one state to another, with the steps it takes: for each step the
state before it and the action. -/
inductive Path : σ → List (σ × α) → σ → Prop
  | nil (s : σ) : Path s [] s
  | snoc {s t u : σ} {l : List (σ × α)} {a : α} (h : Path s l t)
      (hstep : M.step t a = some u) : Path s (l ++ [(t, a)]) u

/-- The states of the runs from the initial state. -/
def Reachable (s : σ) : Prop := ∃ l, M.Path M.init l s

variable {M}

lemma Path.single {s t : σ} {a : α} (h : M.step s a = some t) : M.Path s [(s, a)] t :=
  Path.snoc (Path.nil s) h

lemma Path.trans {s t u : σ} {l l' : List (σ × α)} (h : M.Path s l t) (h' : M.Path t l' u) :
    M.Path s (l ++ l') u := by
  induction h' with
  | nil => simpa using h
  | snoc _ hstep ih =>
      rw [← List.append_assoc]
      exact Path.snoc ih hstep

/-- A run comes apart at each of its steps. -/
lemma Path.split {s u : σ} {l l' : List (σ × α)} {x : σ × α} (h : M.Path s (l ++ x :: l') u) :
    ∃ t, M.Path s l x.1 ∧ M.step x.1 x.2 = some t ∧ M.Path t l' u := by
  generalize hall : l ++ x :: l' = all at h
  induction h generalizing l' with
  | nil => simp at hall
  | @snoc t u k a hprev hstep ih =>
      rcases List.eq_nil_or_concat l' with rfl | ⟨l'', y, rfl⟩
      · obtain ⟨rfl, hx⟩ := List.append_inj' hall rfl
        obtain rfl := List.singleton_inj.mp hx
        exact ⟨u, hprev, hstep, Path.nil u⟩
      · have hall' : (l ++ x :: l'') ++ [y] = k ++ [(t, a)] := by simpa using hall
        obtain ⟨hk, hy⟩ := List.append_inj' hall' rfl
        obtain rfl := List.singleton_inj.mp hy
        obtain ⟨v, hl, hv, hl''⟩ := ih hk
        exact ⟨v, hl, hv, by simpa using hl''.snoc hstep⟩

/-- **The run rule**, for the runs whose steps meet a condition `P`: what every
such step preserves holds at the end of every such run. -/
theorem Path.invariant_of_steps {I : σ → Prop} {P : σ → α → Prop}
    (hI : ∀ s a t, I s → P s a → M.step s a = some t → I t)
    {s t : σ} {l : List (σ × α)} (h : M.Path s l t) (hs : I s)
    (hP : ∀ x ∈ l, P x.1 x.2) : I t := by
  induction h with
  | nil => exact hs
  | @snoc t u l a _ hstep ih =>
      have hlast : P t a := hP (t, a) (by simp)
      have hprev : I t := ih fun x hx => hP x (by simp [hx])
      exact hI t a u hprev hlast hstep

lemma Reachable.init : M.Reachable M.init := ⟨[], Path.nil _⟩

/-- The steps of a list of actions take only these. -/
lemma mem_of_mem_steps {s : σ} {as : List α} {x : σ × α} (h : x ∈ M.steps s as) : x.2 ∈ as := by
  induction as generalizing s with
  | nil => exact absurd h List.not_mem_nil
  | cons a as ih =>
      rw [steps] at h
      rcases List.mem_cons.mp h with rfl | h
      · exact List.mem_cons_self
      · split at h
        · exact List.mem_cons_of_mem _ (ih h)
        · exact absurd h List.not_mem_nil

/-- An evaluated list of actions is a run, with the steps `steps` lists. -/
theorem Path.of_exec {s t : σ} {as : List α} (h : M.exec s as = some t) :
    M.Path s (M.steps s as) t := by
  induction as generalizing s with
  | nil =>
      obtain rfl : s = t := by simpa using h
      exact Path.nil s
  | cons a as ih =>
      rw [exec_cons, Option.bind_eq_some_iff] at h
      obtain ⟨u, hu, h⟩ := h
      have hsteps : M.steps s (a :: as) = [(s, a)] ++ M.steps u as := by
        rw [steps, hu]
        rfl
      rw [hsteps]
      exact (Path.single hu).trans (ih h)

lemma Reachable.of_exec {t : σ} {as : List α} (h : M.exec M.init as = some t) :
    M.Reachable t := ⟨_, Path.of_exec h⟩

end System

end Transition
