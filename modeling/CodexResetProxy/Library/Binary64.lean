import Mathlib.Data.Int.Log
import Mathlib.Data.Rat.Floor
import Mathlib.Tactic.Ring
import Mathlib.Tactic.Linarith

/-!
The numbers of IEEE 754's binary64, as rationals.

* `nearest`: to the nearest, ties to even, with `none` for an overflow;
  `nearest_of_representable`: a number stays as it is.
* `shortest`: the shortest decimal for a number; `nearest_shortest`: **it is rounded to that
  number**.
-/

namespace Binary64

/-! ### Rounding -/

/-- The nearest integer, the even one of two. -/
def roundEven (q : ℚ) : ℤ :=
  if q - ⌊q⌋ < 1 / 2 ∨ q - ⌊q⌋ = 1 / 2 ∧ ⌊q⌋ % 2 = 0 then ⌊q⌋ else ⌊q⌋ + 1

/-- The exponent of the last of 53 digits, or the least there is. -/
def ulpExponent (q : ℚ) : ℤ := max (-1074) (Int.log 2 |q| - 52)

/-- The nearest number, with `none` for an overflow. -/
def nearest (q : ℚ) : Option ℚ :=
  let x := (roundEven (q / 2 ^ ulpExponent q) : ℚ) * 2 ^ ulpExponent q
  if |x| < 2 ^ 1024 then some x else none

/-- A multiple of the last digit, of at most 53 digits or the power behind them. -/
def Representable (x : ℚ) : Prop := ∃ m e : ℤ, |m| ≤ 2 ^ 53 ∧ -1074 ≤ e ∧ x = m * 2 ^ e

lemma roundEven_intCast (n : ℤ) : roundEven n = n := by
  simp [roundEven]

lemma roundEven_bounds (q : ℚ) : ⌊q⌋ ≤ roundEven q ∧ roundEven q ≤ ⌊q⌋ + 1 := by
  rw [roundEven]
  split_ifs <;> omega

lemma abs_roundEven_le {q : ℚ} {n : ℤ} (h : |q| < n) : |roundEven q| ≤ n := by
  obtain ⟨hlow, hhigh⟩ := abs_lt.mp h
  obtain ⟨hfloor, hceil⟩ := roundEven_bounds q
  have hle : -n ≤ ⌊q⌋ := Int.le_floor.mpr (by push_cast; exact hlow.le)
  have hlt : ⌊q⌋ < n := Int.floor_lt.mpr hhigh
  exact abs_le.mpr ⟨by omega, by omega⟩

lemma abs_div_lt (q : ℚ) : |q / 2 ^ ulpExponent q| < (2 ^ 53 : ℤ) := by
  have hpos : (0 : ℚ) < 2 ^ ulpExponent q := zpow_pos (by norm_num) _
  have hlog : |q| < 2 ^ (Int.log 2 |q| + 1) := by
    exact_mod_cast Int.lt_zpow_succ_log_self (R := ℚ) (b := 2) (by norm_num) |q|
  have hexp : Int.log 2 |q| + 1 ≤ 53 + ulpExponent q := by
    have := le_max_right (-1074) (Int.log 2 |q| - 52)
    rw [ulpExponent]
    omega
  rw [abs_div, abs_of_pos hpos, div_lt_iff₀ hpos]
  calc |q| < 2 ^ (Int.log 2 |q| + 1) := hlog
    _ ≤ 2 ^ (53 + ulpExponent q) := zpow_le_zpow_right₀ (by norm_num) hexp
    _ = ((2 ^ 53 : ℤ) : ℚ) * 2 ^ ulpExponent q := by
        rw [zpow_add₀ (by norm_num)]
        norm_num

/-- What is rounded is a number. -/
lemma representable_of_nearest {q x : ℚ} (h : nearest q = some x) :
    Representable x ∧ |x| < 2 ^ 1024 := by
  rw [nearest] at h
  split_ifs at h with hlt
  obtain rfl := Option.some.inj h
  exact ⟨⟨_, _, abs_roundEven_le (abs_div_lt q), le_max_left _ _, rfl⟩, hlt⟩

lemma nearest_nonneg {q x : ℚ} (h : nearest q = some x) (hq : 0 ≤ q) : 0 ≤ x := by
  rw [nearest] at h
  split_ifs at h with hlt
  obtain rfl := Option.some.inj h
  have hpos : (0 : ℚ) < 2 ^ ulpExponent q := zpow_pos (by norm_num) _
  have hfloor : 0 ≤ ⌊q / 2 ^ ulpExponent q⌋ := Int.floor_nonneg.mpr (div_nonneg hq hpos.le)
  have hround : 0 ≤ roundEven (q / 2 ^ ulpExponent q) := hfloor.trans (roundEven_bounds _).1
  exact mul_nonneg (by exact_mod_cast hround) hpos.le

/-- A power of two is a multiple of a lower one. -/
lemma zpow_eq_mul {a b : ℤ} (h : a ≤ b) : (2 : ℚ) ^ b = ((2 ^ (b - a).toNat : ℤ) : ℚ) * 2 ^ a := by
  push_cast
  rw [← zpow_natCast, ← zpow_add₀ (by norm_num)]
  congr 1
  omega

/-- A number is a multiple of its last digit. -/
lemma exists_eq_mul {x : ℚ} (h : Representable x) : ∃ k : ℤ, x = k * 2 ^ ulpExponent x := by
  obtain ⟨m, e, hm, he, hx⟩ := h
  rcases eq_or_ne x 0 with hzero | hne
  · exact ⟨0, by rw [hzero, Int.cast_zero, zero_mul]⟩
  generalize hu : ulpExponent x = u
  by_cases hle : u ≤ e
  · refine ⟨m * 2 ^ (e - u).toNat, ?_⟩
    rw [Int.cast_mul, mul_assoc, ← zpow_eq_mul hle]
    exact hx
  -- otherwise the number is a power of two
  have hlog : u = Int.log 2 |x| - 52 := by
    rw [ulpExponent] at hu
    omega
  have hpos : (0 : ℚ) < 2 ^ e := zpow_pos (by norm_num) e
  have habs : |x| = |m| * 2 ^ e := by rw [hx, abs_mul, abs_of_pos hpos, Int.cast_abs]
  have hlow : (2 : ℚ) ^ Int.log 2 |x| ≤ |x| := by
    exact_mod_cast Int.zpow_log_le_self (R := ℚ) (b := 2) (by norm_num) (abs_pos.mpr hne)
  have hhigh : |x| ≤ 2 ^ (53 + e) := by
    have hm' : ((|m| : ℤ) : ℚ) ≤ 2 ^ (53 : ℤ) := by exact_mod_cast hm
    rw [habs, zpow_add₀ (by norm_num)]
    exact mul_le_mul_of_nonneg_right hm' hpos.le
  have hlogLe : Int.log 2 |x| ≤ 53 + e :=
    (zpow_le_zpow_iff_right₀ (by norm_num)).mp (hlow.trans hhigh)
  have heq : Int.log 2 |x| = 53 + e := by omega
  rw [heq] at hlow
  have hpower : |x| = ((2 ^ 52 : ℤ) : ℚ) * 2 ^ u := by
    have hexp : 53 + e = 52 + u := by omega
    rw [le_antisymm hhigh hlow, hexp, zpow_add₀ (by norm_num)]
    norm_num
  rcases abs_choice x with hsign | hsign
  · exact ⟨2 ^ 52, hsign.symm.trans hpower⟩
  · exact ⟨-2 ^ 52, by rw [Int.cast_neg, neg_mul, ← hpower, hsign, neg_neg]⟩

/-- A number is rounded to itself. -/
lemma nearest_of_representable {x : ℚ} (h : Representable x) (hlt : |x| < 2 ^ 1024) :
    nearest x = some x := by
  obtain ⟨k, hk⟩ := exists_eq_mul h
  have hne : (2 : ℚ) ^ ulpExponent x ≠ 0 := zpow_ne_zero _ (by norm_num)
  have hdiv : x / 2 ^ ulpExponent x = k := by
    rw [div_eq_iff hne]
    exact hk
  rw [nearest, hdiv, roundEven_intCast, ← hk, if_pos hlt]

/-! ### Shortest decimals -/

/-- `coefficient * 10 ^ exponent`. -/
structure Decimal where
  coefficient : ℕ
  exponent : ℤ

/-- The number that a decimal stands for. -/
def Decimal.value (d : Decimal) : ℚ := d.coefficient * 10 ^ d.exponent

/-- The two decimals of `n + 1` digits around a positive number, the nearer first. -/
def candidates (x : ℚ) (n : ℕ) : List Decimal :=
  let k := Int.log 10 x - n
  let y := x / 10 ^ k
  let c := ⌊y⌋₊
  let above : Decimal := if c + 1 = 10 ^ (n + 1) then ⟨1, k + n + 1⟩ else ⟨c + 1, k⟩
  if y - c < 1 / 2 ∨ y - c = 1 / 2 ∧ c % 2 = 0 then [⟨c, k⟩, above] else [above, ⟨c, k⟩]

/-- All the digits of a number. -/
def exact (x : ℚ) : Decimal := ⟨⌊x * 10 ^ 1074⌋₊, -1074⟩

/-- The shortest decimal that is rounded to a positive number. At most 17 digits are
needed. -/
def shortest (x : ℚ) : Decimal :=
  (((List.range 17).flatMap (candidates x)).find? fun d => nearest d.value = some x).getD (exact x)

/-- Enough decimal places make an integer of a multiple of a power of two. -/
lemma mul_zpow_mul_pow {m e : ℤ} {n : ℕ} (h : -n ≤ e) :
    (m : ℚ) * 2 ^ e * 10 ^ n = ((m * 5 ^ n * 2 ^ (e + n).toNat : ℤ) : ℚ) := by
  have hten : (10 : ℚ) ^ n = 5 ^ n * 2 ^ (n : ℤ) := by
    rw [zpow_natCast, ← mul_pow]
    norm_num
  have htwo : (2 : ℚ) ^ (e + n).toNat = 2 ^ e * 2 ^ (n : ℤ) := by
    rw [← zpow_natCast, ← zpow_add₀ (by norm_num), Int.toNat_of_nonneg (by omega)]
  push_cast
  rw [hten, htwo]
  ring

/-- All the digits of a number stand for the number. -/
lemma value_exact {x : ℚ} (h : Representable x) (hnonneg : 0 ≤ x) : (exact x).value = x := by
  obtain ⟨m, e, -, he, hx⟩ := h
  have hint := mul_zpow_mul_pow (m := m) he
  rw [← hx] at hint
  have hpos : (0 : ℚ) < 10 ^ 1074 := pow_pos (by norm_num) _
  have hfloor : (⌊x * 10 ^ 1074⌋₊ : ℚ) = x * 10 ^ 1074 := by
    generalize m * 5 ^ 1074 * 2 ^ (e + (1074 : ℕ)).toNat = k at hint
    have hk : 0 ≤ k := by
      have hscaled : (0 : ℚ) ≤ k := hint ▸ mul_nonneg hnonneg hpos.le
      exact_mod_cast hscaled
    obtain ⟨n, rfl⟩ := Int.eq_ofNat_of_zero_le hk
    rw [hint, Int.cast_natCast, Nat.floor_natCast]
  have hcancel : (10 : ℚ) ^ 1074 * 10 ^ (-1074 : ℤ) = 1 := by
    rw [zpow_neg, ← zpow_natCast]
    exact mul_inv_cancel₀ (zpow_ne_zero _ (by norm_num))
  rw [exact, Decimal.value, hfloor, mul_assoc, hcancel, mul_one]

/-- **The shortest decimal** of a number is rounded to it. -/
theorem nearest_shortest {x : ℚ} (h : Representable x) (hlt : |x| < 2 ^ 1024) (hnonneg : 0 ≤ x) :
    nearest (shortest x).value = some x := by
  rw [shortest]
  generalize (List.range 17).flatMap (candidates x) = decimals
  cases hfind : decimals.find? fun d => nearest d.value = some x with
  | none => rw [Option.getD_none, value_exact h hnonneg, nearest_of_representable h hlt]
  | some d =>
      have hround := List.find?_some hfind
      exact of_decide_eq_true hround

end Binary64
