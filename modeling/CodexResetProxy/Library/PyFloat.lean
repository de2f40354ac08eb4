import Mathlib.Data.Rat.Cast.Order
import Mathlib.Tactic.Common

/-!
Python's `float` and its comparisons: a number, an infinity, or `nan`, of which no
comparison holds. Numbers are not rounded.

* `lt`, `le`: `a < b` and `a <= b`; `max`: `max(a, b)`, which returns its first
  argument unless the second one is greater.
-/

/-- A `float`. -/
inductive PyFloat where
  | finite (q : ℚ)
  | posInf
  | negInf
  | nan
  deriving DecidableEq

namespace PyFloat

instance (n : ℕ) : OfNat PyFloat n := ⟨.finite n⟩

/-- `a < b`. -/
def lt : PyFloat → PyFloat → Bool
  | .finite a, .finite b => a < b
  | .finite _, .posInf => true
  | .negInf, .finite _ => true
  | .negInf, .posInf => true
  | _, _ => false

/-- `a <= b`. -/
def le (a b : PyFloat) : Bool := a.lt b || (a = b && a ≠ .nan)

instance : LT PyFloat := ⟨fun a b => a.lt b = true⟩

instance : LE PyFloat := ⟨fun a b => a.le b = true⟩

instance (a b : PyFloat) : Decidable (a < b) := inferInstanceAs (Decidable (a.lt b = true))

instance (a b : PyFloat) : Decidable (a ≤ b) := inferInstanceAs (Decidable (a.le b = true))

/-- `max(a, b)`. -/
def max (a b : PyFloat) : PyFloat := if a < b then b else a

example : max 0 .nan = 0 ∧ max .nan 0 = .nan ∧ max 0 .posInf = .posInf := by decide

lemma le_of_lt {a b : PyFloat} (h : a < b) : a ≤ b := by
  show (a.lt b || (a = b && a ≠ .nan)) = true
  rw [show a.lt b = true from h, Bool.true_or]

lemma le_rfl_of_ne {a : PyFloat} (h : a ≠ .nan) : a ≤ a := by
  show (a.lt a || (a = a && a ≠ .nan)) = true
  simp [h]

/-- The maximum with a number is no less than it. -/
lemma le_max {a : PyFloat} (h : a ≠ .nan) (b : PyFloat) : a ≤ a.max b := by
  rw [max]
  split_ifs with hlt
  · exact le_of_lt hlt
  · exact le_rfl_of_ne h

end PyFloat
