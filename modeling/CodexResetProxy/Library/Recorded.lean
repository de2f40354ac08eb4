import CodexResetProxy.Library.Interruption

/-!
History variables for programs that are interrupted.

* `Machine.recorded`: a machine that notes operations; the programs do not see it.
* `exists_recorded`: every run of a machine is one of the machine with a history.
* `invariant_of_outline`: what follows from the assertion at each point of the programs
  holds in every state of every run.
-/

namespace Interruption

open Transition Machine

variable {σ κ δ α ω β : Type} {Res : ω → Type} {M : Machine σ κ δ α Res}

/-- The machine with a history: what is noted of the operations that did not fail. -/
def Machine.recorded (M : Machine σ κ δ α Res) (note : ω → Option β) :
    Machine (σ × List β) κ δ α Res where
  init := (M.init, [])
  perform o s := (M.perform o s.1).map fun x => (x.1, x.2, s.2 ++ (note o).toList)
  body := M.body
  disturb d s := (M.disturb d s.1, s.2)

/-- A configuration with a history. -/
def Machine.Config.recorded (c : Config σ κ α Res) (h : List β) : Config (σ × List β) κ α Res :=
  ⟨(c.store, h), c.running⟩

lemma recorded_step (note : ω → Option β) {c c' : Config σ κ α Res} {a : Action κ δ} (h : List β)
    (hstep : M.step c a = some c') :
    ∃ more, (M.recorded note).step (c.recorded h) a = some (c'.recorded (h ++ more)) := by
  cases step_move hstep with
  | @performed s t call o next r hperform =>
      -- an operation that is performed is noted
      refine ⟨(note o).toList, ?_⟩
      simp [step, Config.recorded, Machine.recorded, hperform]
  | failed hperform =>
      refine ⟨[], ?_⟩
      simp [step, Config.recorded, Machine.recorded, hperform]
  | start | returned | raised | crash | disturb => exact ⟨[], by rw [List.append_nil]; rfl⟩

/-- **Every run has a history**, which only grows. -/
theorem exists_recorded (note : ω → Option β) {c c' : Config σ κ α Res}
    {l : List (Config σ κ α Res × Action κ δ)} (hrun : M.system.Path c l c') (h : List β) :
    ∃ l' all, (M.recorded note).system.Path (c.recorded h) l' (c'.recorded all) ∧
      ∀ x ∈ l, ∃ l'' known, (M.recorded note).system.Path (c.recorded h) l'' (x.1.recorded known) ∧
        known ⊆ all := by
  induction hrun with
  | nil => exact ⟨[], h, .nil _, by simp⟩
  | @snoc t u l a _ hstep ih =>
      obtain ⟨l', all, hrun, hknown⟩ := ih
      obtain ⟨more, hstep'⟩ := recorded_step note all hstep
      refine ⟨_, all ++ more, hrun.snoc hstep', fun x hx => ?_⟩
      rcases List.mem_append.mp hx with hx | hx
      · obtain ⟨l'', known, hrun', hsub⟩ := hknown x hx
        exact ⟨l'', known, hrun', List.subset_append_of_subset_left more hsub⟩
      · obtain rfl := List.mem_singleton.mp hx
        exact ⟨l', all, hrun, List.subset_append_left all more⟩

/-- **An invariant of the points** holds in every state. -/
theorem invariant_of_outline {I : σ → Prop} (post : κ → α → σ → Prop)
    (hstart : ∀ s call, I s → ∃ P, P s ∧
      Outline M (fun _ _ => True) I call (post call) (M.body call) P)
    (hdisturb : ∀ s d, I s → I (M.disturb d s)) (hinit : I M.init)
    {l : List (Config σ κ α Res × Action κ δ)} {c : Config σ κ α Res}
    (hrun : M.system.Path M.system.init l c) : I c.store := by
  have houtlined : Outlined M (fun _ _ => True) I post c :=
    hrun.invariant_of_steps
      (fun _ _ _ => outlined_step (fun s call hs _ => hstart s call hs)
        fun s d hs _ => hdisturb s d hs)
      hinit fun _ _ => trivial
  obtain ⟨s, running⟩ := c
  cases running with
  | none => exact houtlined
  | some running =>
      obtain ⟨P, hP, houtline⟩ := houtlined
      have hstable : Stable M (fun _ _ => True) I running.1 running.2 P := houtline.stable
      exact hstable.crash s hP trivial

end Interruption
