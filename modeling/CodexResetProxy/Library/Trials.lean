import Mathlib.Data.List.Nodup
import Mathlib.Data.List.Count
import Mathlib.Logic.Function.Basic

/-!
A party that tries one resource after the other, among others that use the same
resources.

The trace of a resource lists what the party did on it. A try begins with the
event `start`. It may fail: the party gives the resource up for good and can try
another one.

* `Tried`: every resource was tried at most once, all tries but the current one
  have failed and are closed, and nothing was done on the other resources.
* `Tried.begin`, `Tried.goesOn`, `Tried.fails`: what the party does.
* `Tried.frame`: what others do.
* `Tried.count_start`: how often tries begin. `Tried.current_of_mem`: an event that
  no failed try has is of the current one.
-/

namespace Trials

variable {ι ε : Type*}

/-- What a party has tried: the resources in `earlier`, where its tries failed, and
`current`, where its try is not over. -/
structure Tried (start : ε) (failed : List ε → Prop) (closed : ι → Prop)
    (trace : ι → List ε) (earlier : List ι) (current : Option ι) : Prop where
  nodup : (earlier ++ current.toList).Nodup
  ended : ∀ c ∈ earlier, failed (trace c) ∧ closed c
  going : ∀ c, current = some c → ∃ rest, trace c = start :: rest ∧ start ∉ rest
  untried : ∀ c, c ∉ earlier → current ≠ some c → trace c = []

variable {start : ε} {failed : List ε → Prop} {closed closed' : ι → Prop}
  {trace : ι → List ε} {earlier : List ι} {current : Option ι} {c : ι}

namespace Tried

/-- A party that has done nothing has tried nothing. -/
lemma nothing (htrace : ∀ c, trace c = []) : Tried start failed closed trace [] none where
  nodup := List.nodup_nil
  ended := fun _ hc => absurd hc List.not_mem_nil
  going := fun _ hc => absurd hc (by simp)
  untried := fun c _ _ => htrace c

lemma not_mem_earlier (h : Tried start failed closed trace earlier (some c)) : c ∉ earlier := by
  intro hc
  exact (List.nodup_append'.mp h.nodup).2.2 hc (by simp)

/-- What others do: they leave the traces alone, and what is closed stays so. -/
lemma frame (h : Tried start failed closed trace earlier current)
    (hclosed : ∀ c, closed c → closed' c) : Tried start failed closed' trace earlier current :=
  ⟨h.nodup, fun c hc => ⟨(h.ended c hc).1, hclosed c (h.ended c hc).2⟩, h.going, h.untried⟩

/-- The current try fails. -/
lemma fails (h : Tried start failed closed trace earlier (some c)) (hfailed : failed (trace c))
    (hclosed : closed c) : Tried start failed closed trace (earlier ++ [c]) none where
  nodup := by simpa using h.nodup
  ended := fun d hd => by
    rcases List.mem_append.mp hd with hd | hd
    · exact h.ended d hd
    · rw [List.mem_singleton.mp hd]
      exact ⟨hfailed, hclosed⟩
  going := fun d hd => absurd hd (by simp)
  untried := fun d hd _ => by
    rw [List.mem_append, List.mem_singleton, not_or] at hd
    exact h.untried d hd.1 fun heq => hd.2 (Option.some.inj heq).symm

section Update

variable [DecidableEq ι]

/-- A try begins, on a resource that is not closed. -/
lemma begin (h : Tried start failed closed trace earlier none) (hc : ¬closed c) :
    Tried start failed closed (Function.update trace c (trace c ++ [start])) earlier (some c) := by
  have hnew : c ∉ earlier := fun hmem => hc (h.ended c hmem).2
  refine ⟨?_, fun d hd => ?_, fun d hd => ?_, fun d hd hne => ?_⟩
  · refine List.nodup_append'.mpr ⟨by simpa using h.nodup, List.nodup_singleton c, ?_⟩
    simpa using hnew
  · have hne : d ≠ c := fun heq => hnew (heq ▸ hd)
    rw [Function.update_of_ne hne]
    exact h.ended d hd
  · obtain rfl : c = d := Option.some.inj hd
    refine ⟨[], ?_, List.not_mem_nil⟩
    rw [Function.update_self, h.untried c hnew (by simp), List.nil_append]
  · have hne' : d ≠ c := fun heq => hne (heq ▸ rfl)
    rw [Function.update_of_ne hne']
    exact h.untried d hd (by simp)

/-- The current try goes on. -/
lemma goesOn {e : ε} (h : Tried start failed closed trace earlier (some c)) (he : e ≠ start) :
    Tried start failed closed (Function.update trace c (trace c ++ [e])) earlier (some c) := by
  refine ⟨h.nodup, fun d hd => ?_, fun d hd => ?_, fun d hd hne => ?_⟩
  · have hne : d ≠ c := fun heq => h.not_mem_earlier (heq ▸ hd)
    rw [Function.update_of_ne hne]
    exact h.ended d hd
  · obtain rfl : c = d := Option.some.inj hd
    obtain ⟨rest, htrace, hrest⟩ := h.going c rfl
    refine ⟨rest ++ [e], ?_, ?_⟩
    · rw [Function.update_self, htrace, List.cons_append]
    · simp [hrest, Ne.symm he]
  · have hne' : d ≠ c := fun heq => hne (heq ▸ rfl)
    rw [Function.update_of_ne hne']
    exact h.untried d hd hne

end Update

/-- **Tries begin once** on each resource that was tried, and on no other. -/
theorem count_start [DecidableEq ε] [DecidableEq ι]
    (h : Tried start failed closed trace earlier current)
    (hfailed : ∀ l, failed l → l.count start = 1) (c : ι) :
    (trace c).count start = if c ∈ earlier ++ current.toList then 1 else 0 := by
  by_cases hearlier : c ∈ earlier
  · rw [if_pos (List.mem_append_left _ hearlier)]
    exact hfailed _ (h.ended c hearlier).1
  · by_cases hcurrent : current = some c
    · obtain ⟨rest, htrace, hrest⟩ := h.going c hcurrent
      rw [if_pos (by simp [hcurrent]), htrace, List.count_cons_self,
        List.count_eq_zero_of_not_mem hrest]
    · rw [if_neg (by simp [hearlier, hcurrent]), h.untried c hearlier hcurrent, List.count_nil]

/-- **What no failed try did** was done in the current one. -/
theorem current_of_mem {e : ε} (h : Tried start failed closed trace earlier current)
    (hfailed : ∀ l, failed l → e ∉ l) (he : e ∈ trace c) : current = some c := by
  by_contra hne
  by_cases hearlier : c ∈ earlier
  · exact hfailed _ (h.ended c hearlier).1 he
  · rw [h.untried c hearlier hne] at he
    exact List.not_mem_nil he

end Tried

end Trials
