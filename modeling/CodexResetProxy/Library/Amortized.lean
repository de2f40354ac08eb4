import Mathlib.Algebra.BigOperators.Intervals
import CodexResetProxy.Library.Transition

/-!
Potentials of transition systems: how much work a run can do.

* `Path.amortized`: if every step pays for its work out of a potential, up to what
  the step brings in, then a run works no more than it was brought.
* `exists_path_to`: if the system can always work until it is at rest, some run that
  is no longer than the potential brings it to rest.
-/

namespace Transition.System

variable {σ α : Type*} {M : System σ α} {Φ : σ → ℕ} {work credit : α → ℕ}

/-- **The amortised bound.** -/
theorem Path.amortized
    (hstep : ∀ s a t, M.Reachable s → M.step s a = some t → Φ t + work a ≤ Φ s + credit a)
    {s t : σ} {l : List (σ × α)} (hs : M.Reachable s) (h : M.Path s l t) :
    Φ t + (l.map fun x => work x.2).sum ≤ Φ s + (l.map fun x => credit x.2).sum := by
  induction h with
  | nil => simp
  | @snoc t u l a hprev hnext ih =>
      have hreach : M.Reachable t := by
        obtain ⟨k, hk⟩ := hs
        exact ⟨k ++ l, hk.trans hprev⟩
      have hlast := hstep t a u hreach hnext
      simp only [List.map_append, List.sum_append, List.map_cons, List.map_nil, List.sum_cons,
        List.sum_nil]
      omega

/-- **Rest is in reach**, if work can be done until there is rest and takes from the
potential. -/
theorem exists_path_to {Rest : σ → Prop} {Works : α → Prop}
    (hstep : ∀ s a t, M.Reachable s → Works a → M.step s a = some t → Φ t < Φ s)
    (hprogress : ∀ s, M.Reachable s → ¬Rest s → ∃ a t, Works a ∧ M.step s a = some t)
    {s : σ} (hs : M.Reachable s) :
    ∃ l t, M.Path s l t ∧ (∀ x ∈ l, Works x.2) ∧ l.length ≤ Φ s ∧ Rest t := by
  induction hΦ : Φ s using Nat.strong_induction_on generalizing s with
  | _ n ih =>
      subst hΦ
      by_cases hrest : Rest s
      · exact ⟨[], s, .nil s, by simp, by simp, hrest⟩
      · obtain ⟨a, t, ha, ht⟩ := hprogress s hs hrest
        have hlt := hstep s a t hs ha ht
        have hreach : M.Reachable t := by
          obtain ⟨k, hk⟩ := hs
          exact ⟨_, hk.snoc ht⟩
        obtain ⟨l, u, hl, hworks, hlen, hu⟩ := ih (Φ t) hlt hreach rfl
        refine ⟨(s, a) :: l, u, (Path.single ht).trans hl, ?_, ?_, hu⟩
        · simpa [ha] using hworks
        · simp only [List.length_cons]
          omega

end Transition.System
