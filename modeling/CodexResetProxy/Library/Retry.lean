import Mathlib.Tactic.Common
import Mathlib.Order.Nat

/-!
A bounded retry loop: attempts that are done, that fail and are tried again, or
that raise out of the loop.

* `run`: the loop, over a state that the attempts change; `results` lists what
  the attempts would come to if none of them ended the loop.
* `run_ends`: the loop ends as its attempts do.
* `run_of_first`, `run_of_forall`: what the loop gives and the state it leaves.
* `run_done_iff`: the loop is done if and only if the first attempt that does not
  fail is done, and comes in time.
* `firstDone_after_iff`: the same for a list of attempts that come before others.
* `run_simulates`: two loops whose attempts agree.
* `recorded`: attempts that record what they do, with the record of the loop.
-/

namespace Retry

variable {σ ε ρ α τ : Type*}

/-- What an attempt comes to. -/
inductive Attempt (ε ρ α : Type*) where
  | done (a : α)
  | failed (e : ε)
  | raised (r : ρ)

namespace Attempt

/-- The attempt is tried again. -/
def isFailed : Attempt ε ρ α → Bool
  | .failed _ => true
  | _ => false

/-- The attempt is done. -/
def isDone : Attempt ε ρ α → Bool
  | .done _ => true
  | _ => false

/-- Failures and what is raised have a property. -/
def Ends (P : ε → Prop) (Q : ρ → Prop) : Attempt ε ρ α → Prop
  | .done _ => True
  | .failed e => P e
  | .raised r => Q r

end Attempt

variable (step : ℕ → σ → Attempt ε ρ α × σ)

/-- The loop, with the number of attempts left, the number of the next one and
the last failure. What is done comes with the number of the attempt. -/
def run : ℕ → ℕ → σ → ε → Attempt ε ρ (ℕ × α) × σ
  | 0, _, s, last => (.failed last, s)
  | left + 1, k, s, _ =>
      match step k s with
      | (.failed e, t) => run left (k + 1) t e
      | (.done a, t) => (.done (k, a), t)
      | (.raised r, t) => (.raised r, t)

/-- What the attempts come to, from number `k` on. -/
def results (k : ℕ) (s : σ) : ℕ → Attempt ε ρ α
  | 0 => (step k s).1
  | i + 1 => results (k + 1) (step k s).2 i

/-- The states before the attempts, from number `k` on. -/
def states (k : ℕ) (s : σ) : ℕ → σ
  | 0 => s
  | i + 1 => states (k + 1) (step k s).2 i

/-- Attempt `i` is the first that does not fail, and it is done. -/
def FirstDone (g : ℕ → Attempt ε ρ α) (i : ℕ) : Prop :=
  (g i).isDone = true ∧ ∀ j < i, (g j).isFailed = true

variable {step} {g : ℕ → Attempt ε ρ α}

lemma Attempt.not_isDone_of_isFailed {a : Attempt ε ρ α} (h : a.isFailed = true) :
    a.isDone = false := by
  cases a with
  | failed e => rfl
  | _ => exact absurd h Bool.false_ne_true

/-- **The loop ends as its attempts do.** -/
theorem run_ends {P : ε → Prop} {Q : ρ → Prop} (h : ∀ k s, (step k s).1.Ends P Q) (n k : ℕ) (s : σ)
    {last : ε} (hlast : P last) : (run step n k s last).1.Ends P Q := by
  induction n generalizing k s last with
  | zero => exact hlast
  | succ n ih =>
      have hstep := h k s
      rw [run]
      cases hs : step k s with
      | mk a t =>
          rw [hs] at hstep
          cases a with
          | done a => trivial
          | failed e => exact ih (k + 1) t hstep
          | raised r => exact hstep

/-- Either the first `n` numbers have a property, or there is a first that does
not. -/
lemma forall_or_first (p : ℕ → Prop) (n : ℕ) :
    (∀ j < n, p j) ∨ ∃ i < n, ¬p i ∧ ∀ j < i, p j := by
  induction n with
  | zero => exact Or.inl fun j hj => absurd hj (Nat.not_lt_zero j)
  | succ n ih =>
      rcases ih with hall | ⟨i, hi, hfirst⟩
      · by_cases hn : p n
        · refine Or.inl fun j hj => ?_
          rcases Nat.lt_succ_iff_lt_or_eq.mp hj with hlt | rfl
          · exact hall j hlt
          · exact hn
        · exact Or.inr ⟨n, Nat.lt_succ_self n, hn, hall⟩
      · exact Or.inr ⟨i, Nat.lt_succ_of_lt hi, hfirst⟩

/-- There is one first number without a property. -/
lemma first_unique {p : ℕ → Prop} {i j : ℕ} (hi : ¬p i) (hbefore : ∀ k < i, p k) (hj : ¬p j)
    (hbefore' : ∀ k < j, p k) : i = j := by
  rcases Nat.lt_trichotomy i j with hlt | heq | hlt
  · exact absurd (hbefore' i hlt) hi
  · exact heq
  · exact absurd (hbefore j hlt) hj

lemma firstDone_zero : FirstDone g 0 ↔ (g 0).isDone = true := by
  simp [FirstDone]

lemma firstDone_succ {i : ℕ} :
    FirstDone g (i + 1) ↔ (g 0).isFailed = true ∧ FirstDone (fun j => g (j + 1)) i := by
  constructor
  · rintro ⟨hdone, hfailed⟩
    exact ⟨hfailed 0 (Nat.succ_pos i), hdone, fun j hj => hfailed (j + 1) (Nat.succ_lt_succ hj)⟩
  · rintro ⟨hzero, hdone, hfailed⟩
    refine ⟨hdone, fun j hj => ?_⟩
    cases j with
    | zero => exact hzero
    | succ j => exact hfailed j (Nat.lt_of_succ_lt_succ hj)

lemma Attempt.not_isFailed_of_isDone {a : Attempt ε ρ α} (h : a.isDone = true) :
    ¬a.isFailed = true := fun hfailed => by
  simp [Attempt.not_isDone_of_isFailed hfailed] at h

/-- There is one first attempt that does not fail. -/
lemma FirstDone.unique {i j : ℕ} (hi : FirstDone g i) (hj : FirstDone g j) : i = j :=
  first_unique (Attempt.not_isFailed_of_isDone hi.1) hi.2 (Attempt.not_isFailed_of_isDone hj.1)
    hj.2

/-- An attempt starts from the state that those before it leave. -/
lemma step_states (k : ℕ) (s : σ) (i : ℕ) :
    step (k + i) (states step k s i) = (results step k s i, states step k s (i + 1)) := by
  induction i generalizing k s with
  | zero => rfl
  | succ i ih =>
      rw [results, states, states, ← Nat.add_assoc, Nat.add_right_comm]
      exact ih (k + 1) (step k s).2

/-- What the loop gives when an attempt ends it. -/
def Attempt.numbered (k : ℕ) : Attempt ε ρ α → Attempt ε ρ (ℕ × α)
  | .done a => .done (k, a)
  | .failed e => .failed e
  | .raised r => .raised r

/-- After an attempt that fails, the loop goes on. -/
lemma run_of_failed {k : ℕ} {s : σ} (h : (step k s).1.isFailed = true) (n : ℕ) (last : ε) :
    ∃ e, run step (n + 1) k s last = run step n (k + 1) (step k s).2 e := by
  rw [run]
  cases hstep : step k s with
  | mk outcome t =>
      rw [hstep] at h
      cases outcome with
      | failed e => exact ⟨e, rfl⟩
      | _ => exact absurd h Bool.false_ne_true

/-- **The loop ends** with the first attempt that does not fail. -/
theorem run_of_first {n i : ℕ} (hi : i < n) (k : ℕ) (s : σ) (last : ε)
    (hstop : (results step k s i).isFailed = false)
    (hfailed : ∀ j < i, (results step k s j).isFailed = true) :
    run step n k s last = ((results step k s i).numbered (k + i), states step k s (i + 1)) := by
  obtain ⟨n, rfl⟩ := Nat.exists_eq_succ_of_ne_zero (Nat.ne_zero_of_lt hi)
  induction i generalizing n k s last with
  | zero =>
      rw [run]
      cases hstep : step k s with
      | mk outcome t =>
          rw [results, hstep] at hstop ⊢
          rw [states, hstep]
          cases outcome with
          | failed e => exact absurd hstop.symm Bool.false_ne_true
          | _ => rfl
  | succ i ih =>
      obtain ⟨n, rfl⟩ := Nat.exists_eq_succ_of_ne_zero
        (Nat.ne_zero_of_lt (Nat.lt_of_succ_lt_succ hi))
      obtain ⟨e, hrun⟩ := run_of_failed (hfailed 0 (Nat.succ_pos i)) (n + 1) last
      have hnext := ih (k + 1) (step k s).2 e hstop
        (fun j hj => hfailed (j + 1) (Nat.succ_lt_succ hj)) n (Nat.lt_of_succ_lt_succ hi)
      rw [hrun, hnext, Nat.add_right_comm, Nat.add_assoc]
      rfl

/-- **The loop is exhausted** when all attempts fail. -/
theorem run_of_forall (n k : ℕ) (s : σ) (last : ε)
    (hfailed : ∀ j < n, (results step k s j).isFailed = true) :
    (run step n k s last).1.isFailed = true ∧ (run step n k s last).2 = states step k s n := by
  induction n generalizing k s last with
  | zero => exact ⟨rfl, rfl⟩
  | succ n ih =>
      obtain ⟨e, hrun⟩ := run_of_failed (hfailed 0 (Nat.succ_pos n)) n last
      rw [hrun]
      exact ih (k + 1) (step k s).2 e fun j hj => hfailed (j + 1) (Nat.succ_lt_succ hj)

/-- The loop that is exhausted ends with the failure of its last attempt. -/
theorem run_of_forall_last {n : ℕ} {e : ε} (k : ℕ) (s : σ) (last : ε)
    (hfailed : ∀ j < n, (results step k s j).isFailed = true)
    (hlast : results step k s n = .failed e) :
    run step (n + 1) k s last = (.failed e, states step k s (n + 1)) := by
  induction n generalizing k s last with
  | zero =>
      rw [run]
      cases hstep : step k s with
      | mk outcome t =>
          rw [results, hstep] at hlast
          obtain rfl : outcome = .failed e := hlast
          rw [states, hstep]
          rfl
  | succ n ih =>
      obtain ⟨e', hrun⟩ := run_of_failed (hfailed 0 (Nat.succ_pos n)) (n + 1) last
      rw [hrun,
        ih (k + 1) (step k s).2 e' (fun j hj => hfailed (j + 1) (Nat.succ_lt_succ hj)) hlast]
      rfl

/-- The same attempt with another result. -/
def Attempt.map {β : Type*} (f : α → β) : Attempt ε ρ α → Attempt ε ρ β
  | .done a => .done (f a)
  | .failed e => .failed e
  | .raised r => .raised r

lemma Attempt.Ends.map {β : Type*} {P : ε → Prop} {Q : ρ → Prop} {a : Attempt ε ρ α}
    (h : a.Ends P Q) (f : α → β) : (a.map f).Ends P Q := by
  cases a <;> exact h

/-- **Two loops whose attempts agree** end alike. -/
theorem run_simulates {σ' β : Type*} {step' : ℕ → σ' → Attempt ε ρ β × σ'} {f : α → β}
    {R : σ → σ' → Prop}
    (h : ∀ k s s', R s s' →
      (step' k s').1 = (step k s).1.map f ∧ R (step k s).2 (step' k s').2)
    (n k : ℕ) (s : σ) (s' : σ') (last : ε) (hs : R s s') :
    (run step' n k s' last).1 = (run step n k s last).1.map (Prod.map id f) ∧
      R (run step n k s last).2 (run step' n k s' last).2 := by
  induction n generalizing k s s' last with
  | zero => exact ⟨rfl, hs⟩
  | succ n ih =>
      obtain ⟨hresult, hnext⟩ := h k s s' hs
      rw [run, run]
      cases hstep : step k s with
      | mk outcome t =>
          cases hstep' : step' k s' with
          | mk outcome' t' =>
              rw [hstep, hstep'] at hresult hnext
              obtain rfl : outcome' = outcome.map f := hresult
              cases outcome with
              | failed e => exact ih (k + 1) t t' e hnext
              | done a => exact ⟨rfl, hnext⟩
              | raised r => exact ⟨rfl, hnext⟩

/-- Either all of the first `n` attempts fail, or there is a first that does
not. -/
lemma forall_failed_or_first (g : ℕ → Attempt ε ρ α) (n : ℕ) :
    (∀ j < n, (g j).isFailed = true) ∨
      ∃ i < n, (g i).isFailed = false ∧ ∀ j < i, (g j).isFailed = true := by
  rcases forall_or_first (fun j => (g j).isFailed = true) n with hall | ⟨i, hi, hstop, hfailed⟩
  · exact Or.inl hall
  · exact Or.inr ⟨i, hi, Bool.not_eq_true _ ▸ hstop, hfailed⟩

/-- **The loop is done** if and only if the first attempt that does not fail is
done and comes in time. -/
theorem run_done_iff (n k : ℕ) (s : σ) (last : ε) :
    (run step n k s last).1.isDone = true ↔ ∃ i < n, FirstDone (results step k s) i := by
  rcases forall_failed_or_first (results step k s) n with hall | ⟨i, hi, hstop, hfailed⟩
  · have hrun := Attempt.not_isDone_of_isFailed (run_of_forall n k s last hall).1
    refine ⟨fun h => absurd h (by simp [hrun]), ?_⟩
    rintro ⟨i, hi, hfirst⟩
    exact absurd hfirst.1 (by simp [Attempt.not_isDone_of_isFailed (hall i hi)])
  · have hnumbered : (run step n k s last).1.isDone = (results step k s i).isDone := by
      rw [run_of_first hi k s last hstop hfailed]
      cases results step k s i <;> rfl
    rw [hnumbered]
    refine ⟨fun hdone => ⟨i, hi, hdone, hfailed⟩, ?_⟩
    rintro ⟨j, hj, hfirst⟩
    obtain rfl := first_unique (by simp [hstop]) hfailed
      (Attempt.not_isFailed_of_isDone hfirst.1) hfirst.2
    exact hfirst.1

/-! ### Attempts before others -/

/-- The attempts of a list, then others. -/
def after : List (Attempt ε ρ α) → (ℕ → Attempt ε ρ α) → ℕ → Attempt ε ρ α
  | [], g, i => g i
  | a :: _, _, 0 => a
  | _ :: l, g, i + 1 => after l g i

/-- The first attempt of a list that does not fail is done, and is one of the
first `n`. -/
def ListDone : ℕ → List (Attempt ε ρ α) → Prop
  | 0, _ => False
  | _, [] => False
  | n + 1, a :: l => a.isDone = true ∨ (a.isFailed = true ∧ ListDone n l)

/-- **The loop over a list of attempts and others after it** is done if and only
if the list is, or all of the list fails and the others are done in what is
left. -/
theorem firstDone_after_iff (l : List (Attempt ε ρ α)) (n : ℕ) :
    (∃ i < n, FirstDone (after l g) i) ↔
      ListDone n l ∨ ((∀ a ∈ l, a.isFailed = true) ∧ ∃ i, i + l.length < n ∧ FirstDone g i) := by
  induction l generalizing n with
  | nil =>
      have hafter : after ([] : List (Attempt ε ρ α)) g = g := rfl
      cases n <;> simp [hafter, ListDone]
  | cons a l ih =>
      cases n with
      | zero => simp [ListDone]
      | succ n =>
          have hsplit : (∃ i < n + 1, FirstDone (after (a :: l) g) i) ↔
              a.isDone = true ∨ (a.isFailed = true ∧ ∃ i < n, FirstDone (after l g) i) := by
            constructor
            · rintro ⟨i, hi, hfirst⟩
              cases i with
              | zero => exact Or.inl (firstDone_zero.mp hfirst)
              | succ i =>
                  rw [firstDone_succ] at hfirst
                  exact Or.inr ⟨hfirst.1, i, Nat.lt_of_succ_lt_succ hi, hfirst.2⟩
            · rintro (hdone | ⟨hfailed, i, hi, hfirst⟩)
              · exact ⟨0, Nat.succ_pos n, firstDone_zero.mpr hdone⟩
              · exact ⟨i + 1, Nat.succ_lt_succ hi, firstDone_succ.mpr ⟨hfailed, hfirst⟩⟩
          rw [hsplit, ih, ListDone, List.forall_mem_cons, List.length_cons]
          constructor
          · rintro (hdone | ⟨hfailed, hl | ⟨hall, i, hi, hfirst⟩⟩)
            · exact Or.inl (Or.inl hdone)
            · exact Or.inl (Or.inr ⟨hfailed, hl⟩)
            · exact Or.inr ⟨⟨hfailed, hall⟩, i, by omega, hfirst⟩
          · rintro ((hdone | ⟨hfailed, hl⟩) | ⟨⟨hfailed, hall⟩, i, hi, hfirst⟩)
            · exact Or.inl hdone
            · exact Or.inr ⟨hfailed, Or.inl hl⟩
            · exact Or.inr ⟨hfailed, Or.inr ⟨hall, i, by omega, hfirst⟩⟩

/-! ### What the attempts do -/

/-- The attempts without their records. -/
def plain (step : ℕ → σ → Attempt ε ρ α × σ × List τ) (k : ℕ) (s : σ) : Attempt ε ρ α × σ :=
  ((step k s).1, (step k s).2.1)

/-- Attempts that record what they do, one after the other. -/
def recorded (step : ℕ → σ → Attempt ε ρ α × σ × List τ) (k : ℕ) (p : σ × List τ) :
    Attempt ε ρ α × σ × List τ :=
  ((step k p.1).1, (step k p.1).2.1, p.2 ++ (step k p.1).2.2)

/-- The record of the first `i` attempts, from number `k` on. -/
def record (step : ℕ → σ → Attempt ε ρ α × σ × List τ) (k : ℕ) (s : σ) : ℕ → List τ
  | 0 => []
  | i + 1 => (step k s).2.2 ++ record step (k + 1) (step k s).2.1 i

variable {rstep : ℕ → σ → Attempt ε ρ α × σ × List τ}

@[simp] lemma results_recorded (k : ℕ) (s : σ) (t : List τ) (i : ℕ) :
    results (recorded rstep) k (s, t) i = results (plain rstep) k s i := by
  induction i generalizing k s t with
  | zero => rfl
  | succ i ih => exact ih (k + 1) _ _

@[simp] lemma states_recorded (k : ℕ) (s : σ) (t : List τ) (i : ℕ) :
    states (recorded rstep) k (s, t) i
      = (states (plain rstep) k s i, t ++ record rstep k s i) := by
  induction i generalizing k s t with
  | zero => simp [states, record]
  | succ i ih =>
      refine (ih (k + 1) _ _).trans ?_
      rw [record, states, List.append_assoc]
      rfl

/-- The record of the loop only grows. -/
lemma prefix_record_run (n k : ℕ) (s : σ) (t : List τ) (last : ε) :
    t <+: (run (recorded rstep) n k (s, t) last).2.2 := by
  induction n generalizing k s t last with
  | zero => exact List.prefix_rfl
  | succ n ih =>
      have hstep : t <+: t ++ (rstep k s).2.2 := List.prefix_append t _
      rw [run, recorded]
      cases (rstep k s).1 with
      | failed e => exact hstep.trans (ih (k + 1) _ _ e)
      | _ => exact hstep

/-- What the record of every attempt has, the record of the loop has. -/
lemma forall_mem_record_run {P : τ → Prop} (h : ∀ k s, ∀ a ∈ (rstep k s).2.2, P a) (n k : ℕ) (s : σ)
    (t : List τ) (last : ε) (ht : ∀ a ∈ t, P a) :
    ∀ a ∈ (run (recorded rstep) n k (s, t) last).2.2, P a := by
  induction n generalizing k s t last with
  | zero => exact ht
  | succ n ih =>
      have hstep : ∀ a ∈ t ++ (rstep k s).2.2, P a := List.forall_mem_append.mpr ⟨ht, h k s⟩
      rw [run, recorded]
      cases (rstep k s).1 with
      | failed e => exact ih (k + 1) _ _ e hstep
      | _ => exact hstep

/-- **The loop starts with its first attempt.** -/
theorem first_prefix_run (n k : ℕ) (s : σ) (last : ε) :
    (rstep k s).2.2 <+: (run (recorded rstep) (n + 1) k (s, []) last).2.2 := by
  rw [run, recorded, List.nil_append]
  cases (rstep k s).1 with
  | failed e => exact prefix_record_run n (k + 1) _ _ e
  | _ => exact List.prefix_rfl

end Retry
