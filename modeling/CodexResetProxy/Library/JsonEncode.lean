import Mathlib.Data.Nat.Digits.Lemmas
import CodexResetProxy.Library.JsonDump
import CodexResetProxy.Library.JsonGrammar

/-!
Python's `json.dumps` of any decoded value, with the compact separators.

* `natText`, `intText`, `floatText`: numbers; a float as `float.__repr__` writes it, which is
  no JSON if it is infinite or no number.
* `dumps`: the encoder, with its limits.
* `isValue_dumps`: **what is written** is a value of the grammar; `exists_dumps`: when
  something is written.
-/

namespace Json

open PyStr Rfc8259

/-! ### Integers -/

/-- `str` of a natural number. -/
def natText (n : ℕ) : PyStr :=
  if n = 0 then [0x30] else (Nat.digits 10 n).reverse.map (0x30 + ·)

/-- An integer in decimal notation. -/
def intText (n : ℤ) : PyStr := if n < 0 then 0x2d :: natText n.natAbs else natText n.natAbs

lemma natOfDigits_digits (l : List ℕ) :
    natOfDigits (l.reverse.map (0x30 + ·)) = Nat.ofDigits 10 l := by
  induction l with
  | nil => rfl
  | cons d l ih =>
      rw [List.reverse_cons, List.map_append, natOfDigits_append, ih, Nat.ofDigits_cons]
      simp [natOfDigits]
      ring

/-- A number is written without a zero in front. -/
lemma natText_spec (n : ℕ) : IsNat (natText n) ∧ natOfDigits (natText n) = n := by
  rw [natText]
  split_ifs with hzero
  · exact ⟨.inl rfl, hzero.symm⟩
  have hne : Nat.digits 10 n ≠ [] := Nat.digits_ne_nil_iff_ne_zero.mpr hzero
  refine ⟨.inr ⟨⟨by simpa using hne, fun c hc => ?_⟩, ?_⟩, ?_⟩
  · obtain ⟨d, hd, rfl⟩ := List.mem_map.mp hc
    have hlt := Nat.digits_lt_base (b := 10) (by norm_num) (List.mem_reverse.mp hd)
    exact decide_eq_true ⟨by omega, by omega⟩
  · have hlast := Nat.getLast_digit_ne_zero 10 hzero
    rw [List.head?_map, List.head?_reverse, List.getLast?_eq_some_getLast hne, Option.map_some]
    intro heq
    have := Option.some.inj heq
    omega
  · rw [natOfDigits_digits, Nat.ofDigits_digits]

lemma natText_ne_nil (n : ℕ) : ∃ c t, natText n = c :: t ∧ isDigit c :=
  exists_digit_of_isNat (natText_spec n).1

lemma isDigit_of_mem_natText {n c : ℕ} (h : c ∈ natText n) : isDigit c := by
  rcases (natText_spec n).1 with heq | ⟨⟨-, hdigits⟩, -⟩
  · rw [heq] at h
    obtain rfl := List.mem_singleton.mp h
    rfl
  · exact hdigits c h

lemma isDigits_natText (n : ℕ) : IsDigits (natText n) := by
  obtain ⟨c, t, ht, -⟩ := natText_ne_nil n
  exact ⟨by rw [ht]; exact List.cons_ne_nil c t, fun _ => isDigit_of_mem_natText⟩

/-- An integer is written as its literal. -/
lemma isNumber_intText (n : ℤ) : IsNumber (intText n) (.int n) := by
  obtain ⟨hnat, hvalue⟩ := natText_spec n.natAbs
  have hint : IsInt (intText n) ∧ intOfLiteral (intText n) = n := by
    rw [intText]
    split_ifs with hneg
    · refine ⟨.inr ⟨_, rfl, hnat⟩, ?_⟩
      rw [intOfLiteral, if_pos rfl, hvalue]
      omega
    · obtain ⟨c, t, ht, hc⟩ := natText_ne_nil n.natAbs
      have hdigit := isDigit_bounds hc
      refine ⟨.inl hnat, ?_⟩
      rw [ht, intOfLiteral, if_neg (by omega), ← ht, hvalue]
      omega
  have hnumber := IsNumber.int hint.1
  rwa [hint.2] at hnumber

/-! ### Floats -/

/-- The exponent of a float, with two digits at least. -/
def exponentText (e : ℤ) : PyStr :=
  (if e < 0 then 0x2d else 0x2b) ::
    if e.natAbs < 10 then 0x30 :: natText e.natAbs else natText e.natAbs

/-- Integer, fraction and exponent of a decimal, as `float.__repr__` arranges them. -/
def reprParts (d : Binary64.Decimal) : PyStr × PyStr × PyStr :=
  let digits := natText d.coefficient
  let point : ℤ := digits.length + d.exponent
  if -4 < point ∧ point ≤ 16 then
    if point ≤ 0 then ([0x30], 0x2e :: (List.replicate (-point).toNat 0x30 ++ digits), [])
    else if point < digits.length then
      (digits.take point.toNat, 0x2e :: digits.drop point.toNat, [])
    else (digits ++ List.replicate (point - digits.length).toNat 0x30, [0x2e, 0x30], [])
  else
    (digits.take 1, if digits.length = 1 then [] else 0x2e :: digits.drop 1,
      0x65 :: exponentText (point - 1))

/-- The same of a number that is not negative. -/
def floatParts (x : ℚ) : PyStr × PyStr × PyStr :=
  if x = 0 then ([0x30], [0x2e, 0x30], []) else reprParts (Binary64.shortest x)

/-- `float.__repr__` as the encoder uses it, of a float that comes from a literal. -/
def floatText (literal : PyStr) : PyStr :=
  match floatNumber literal with
  | .decimal negative (some x) =>
      let (i, f, e) := floatParts x
      (if negative then [0x2d] else []) ++ i ++ f ++ e
  | .decimal negative none => if negative then py "-Infinity" else py "Infinity"
  | .literal text => text
  | .int n => intText n

example : floatText (py "12345678901234567890.0") = py "1.2345678901234567e+19" := by decide +kernel

/-! ### The number that a float is written as -/

lemma natOfDigits_zeros (k : ℕ) (s : PyStr) :
    natOfDigits (List.replicate k 0x30 ++ s) = natOfDigits s := by
  induction k with
  | zero => rfl
  | succ k ih =>
      rw [List.replicate_succ, List.cons_append, natOfDigits_cons, ih]
      simp

lemma natOfDigits_append_zeros (k : ℕ) (s : PyStr) :
    natOfDigits (s ++ List.replicate k 0x30) = natOfDigits s * 10 ^ k := by
  rw [natOfDigits_append, List.length_replicate, ← List.append_nil (List.replicate k _),
    natOfDigits_zeros]
  rfl

lemma magnitude_point {i t e : PyStr} (hi : ∀ c ∈ i, isDigit c) (ht : ∀ c ∈ t, isDigit c) :
    magnitude i (0x2e :: t) e = natOfDigits (i ++ t) * 10 ^ (exponent e - t.length) := by
  rw [magnitude, List.filter_append, List.filter_cons_of_neg (by decide), filter_digits hi,
    filter_digits ht]

lemma magnitude_nil {i e : PyStr} (hi : ∀ c ∈ i, isDigit c) :
    magnitude i [] e = natOfDigits i * 10 ^ exponent e := by
  rw [magnitude, List.append_nil, filter_digits hi]
  simp

lemma isExp_exponentText (e : ℤ) :
    IsExp (0x65 :: exponentText e) ∧ exponent (0x65 :: exponentText e) = e := by
  obtain ⟨digits, hdigits, hvalue, htext⟩ : ∃ digits, IsDigits digits ∧
      natOfDigits digits = e.natAbs ∧
      exponentText e = (if e < 0 then 0x2d else 0x2b) :: digits := by
    by_cases hsmall : e.natAbs < 10
    · refine ⟨0x30 :: natText e.natAbs, ⟨by simp, ?_⟩, ?_, by rw [exponentText, if_pos hsmall]⟩
      · exact List.forall_mem_cons.mpr ⟨rfl, fun _ => isDigit_of_mem_natText⟩
      · rw [natOfDigits_cons, (natText_spec _).2]
        simp
    · exact ⟨natText e.natAbs, isDigits_natText _, (natText_spec _).2, by
        rw [exponentText, if_neg hsmall]⟩
  obtain ⟨c, t, rfl⟩ := List.exists_cons_of_ne_nil hdigits.1
  have hdigit := isDigit_bounds (hdigits.2 c List.mem_cons_self)
  rw [htext]
  split_ifs with hneg
  · refine ⟨⟨0x65, _, .inl rfl, rfl, .inr ⟨0x2d, _, .inr rfl, rfl, hdigits⟩⟩, ?_⟩
    rw [exponent, intOfLiteral, if_pos rfl, hvalue]
    · omega
    · simp
  · refine ⟨⟨0x65, _, .inl rfl, rfl, .inr ⟨0x2b, _, .inl rfl, rfl, hdigits⟩⟩, ?_⟩
    rw [exponent, intOfLiteral, if_neg (by omega), hvalue]
    omega

/-- Three parts that make a number of this magnitude. -/
structure IsParts (p : PyStr × PyStr × PyStr) (q : ℚ) : Prop where
  int : IsNat p.1
  frac : p.2.1 = [] ∨ IsFrac p.2.1
  exp : p.2.2 = [] ∨ IsExp p.2.2
  decimal : p.2.1 ≠ [] ∨ p.2.2 ≠ []
  magnitude : Rfc8259.magnitude p.1 p.2.1 p.2.2 = q

lemma isNat_of_head {s : PyStr} (hne : s ≠ []) (hdigits : ∀ c ∈ s, isDigit c)
    (hhead : s.head? ≠ some 0x30) : IsNat s :=
  .inr ⟨⟨hne, hdigits⟩, hhead⟩

lemma isDigit_of_mem_zeros {k c : ℕ} (h : c ∈ List.replicate k 0x30) : isDigit c := by
  rw [List.eq_of_mem_replicate h]
  rfl

/-- All the digits behind the point, and zeros before them. -/
lemma isParts_behind {digits : PyStr} {e : ℤ} (h : IsDigits digits) (hlow : digits.length + e ≤ 0) :
    IsParts ([0x30], 0x2e :: (List.replicate (-(digits.length + e)).toNat 0x30 ++ digits), [])
      (natOfDigits digits * 10 ^ e) := by
  have htail : ∀ c ∈ List.replicate (-(digits.length + e)).toNat 0x30 ++ digits, isDigit c :=
    fun c hc => (List.mem_append.mp hc).elim isDigit_of_mem_zeros (h.2 c)
  refine ⟨.inl rfl, .inr ⟨_, rfl, by simp [h.1], htail⟩, .inl rfl, .inl (by simp), ?_⟩
  rw [magnitude_point (by simp [isDigit]) htail, List.singleton_append, natOfDigits_cons,
    natOfDigits_zeros, List.length_append, List.length_replicate]
  have hexp : exponent [] - (((-(digits.length + e)).toNat + digits.length : ℕ) : ℤ) = e := by
    rw [exponent]
    omega
  rw [hexp]
  simp

/-- The point inside the digits. -/
lemma isParts_inside {digits : PyStr} {e : ℤ} (h : IsDigits digits)
    (hhead : digits.head? ≠ some 0x30) (hlow : 0 < digits.length + e) (hinside : e < 0) :
    IsParts (digits.take (digits.length + e).toNat,
      0x2e :: digits.drop (digits.length + e).toNat, []) (natOfDigits digits * 10 ^ e) := by
  have hbefore : ∀ c ∈ digits.take (digits.length + e).toNat, isDigit c :=
    fun c hc => h.2 c (List.mem_of_mem_take hc)
  have hbehind : ∀ c ∈ digits.drop (digits.length + e).toNat, isDigit c :=
    fun c hc => h.2 c (List.mem_of_mem_drop hc)
  have htake : digits.take (digits.length + e).toNat ≠ [] := by
    rw [ne_eq, List.take_eq_nil_iff, not_or]
    exact ⟨by omega, h.1⟩
  have hdrop : digits.drop (digits.length + e).toNat ≠ [] := by
    rw [ne_eq, List.drop_eq_nil_iff]
    omega
  have hfirst : (digits.take (digits.length + e).toNat).head? ≠ some 0x30 := by
    rw [List.head?_take, if_neg (by omega)]
    exact hhead
  refine ⟨isNat_of_head htake hbefore hfirst, .inr ⟨_, rfl, hdrop, hbehind⟩, .inl rfl,
    .inl (by simp), ?_⟩
  rw [magnitude_point hbefore hbehind, List.take_append_drop, List.length_drop]
  have hexp : exponent [] - ((digits.length - (digits.length + e).toNat : ℕ) : ℤ) = e := by
    rw [exponent]
    omega
  rw [hexp]

/-- The point behind the digits, and zeros between. -/
lemma isParts_before {digits : PyStr} {e : ℤ} (h : IsDigits digits)
    (hhead : digits.head? ≠ some 0x30) (he : 0 ≤ e) :
    IsParts (digits ++ List.replicate (digits.length + e - digits.length).toNat 0x30,
      [0x2e, 0x30], []) (natOfDigits digits * 10 ^ e) := by
  obtain ⟨k, rfl⟩ := Int.eq_ofNat_of_zero_le he
  have hlength : (digits.length + (k : ℤ) - digits.length).toNat = k := by omega
  rw [hlength]
  have hzeros : ∀ c ∈ digits ++ List.replicate k 0x30, isDigit c :=
    fun c hc => (List.mem_append.mp hc).elim (h.2 c) isDigit_of_mem_zeros
  have hfirst : (digits ++ List.replicate k 0x30).head? ≠ some 0x30 := by
    rw [List.head?_append_of_ne_nil _ h.1]
    exact hhead
  have hfrac : IsFrac [0x2e, 0x30] := ⟨[0x30], rfl, by simp, by simp [isDigit]⟩
  refine ⟨isNat_of_head (by simp [h.1]) hzeros hfirst, .inr hfrac, .inl rfl, .inl (by simp), ?_⟩
  have hexp : ((k + 1 : ℕ) : ℤ) + (exponent [] - ((1 : ℕ) : ℤ)) = k := by
    rw [exponent]
    omega
  calc magnitude (digits ++ List.replicate k 0x30) [0x2e, 0x30] []
      = natOfDigits (digits ++ List.replicate (k + 1) 0x30) * 10 ^ (exponent [] - (1 : ℕ)) := by
        rw [magnitude_point hzeros (by simp [isDigit]), List.append_assoc,
          ← List.replicate_succ', List.length_singleton]
    _ = natOfDigits digits * 10 ^ (((k + 1 : ℕ) : ℤ) + (exponent [] - (1 : ℕ))) := by
        rw [natOfDigits_append_zeros, Nat.cast_mul, Nat.cast_pow, Nat.cast_ofNat, mul_assoc,
          ← zpow_natCast, ← zpow_add₀ (by norm_num)]
    _ = natOfDigits digits * 10 ^ (k : ℤ) := by rw [hexp]

/-- One digit before the point, if there is one, and an exponent. -/
lemma isParts_exponent {digits : PyStr} {e : ℤ} (h : IsDigits digits)
    (hhead : digits.head? ≠ some 0x30) :
    IsParts (digits.take 1, if digits.length = 1 then [] else 0x2e :: digits.drop 1,
      0x65 :: exponentText (digits.length + e - 1)) (natOfDigits digits * 10 ^ e) := by
  obtain ⟨hexp, heq⟩ := isExp_exponentText (digits.length + e - 1)
  obtain ⟨c, t, rfl⟩ := List.exists_cons_of_ne_nil h.1
  obtain ⟨hc, ht⟩ := List.forall_mem_cons.mp h.2
  rw [List.take_succ_cons, List.take_zero, List.drop_succ_cons, List.drop_zero]
  have hfirst : IsNat [c] := isNat_of_head (by simp) (by simpa using hc) hhead
  split_ifs with hone
  · obtain rfl : t = [] := by simpa using hone
    refine ⟨hfirst, .inl rfl, .inr hexp, .inr (by simp), ?_⟩
    rw [magnitude_nil h.2, heq]
    simp
  · have htail : t ≠ [] := by
      rintro rfl
      exact hone rfl
    refine ⟨hfirst, .inr ⟨t, rfl, htail, ht⟩, .inr hexp, .inr (by simp), ?_⟩
    have hlength : ((c :: t).length + e - 1 - t.length : ℤ) = e := by
      rw [List.length_cons]
      push_cast
      ring
    rw [magnitude_point (by simpa using hc) ht, heq, hlength, List.singleton_append]

/-- **A decimal** is written as a number of its value. -/
lemma isParts_reprParts {d : Binary64.Decimal} (h : d.coefficient ≠ 0) :
    IsParts (reprParts d) d.value := by
  obtain ⟨hnat, hvalue⟩ := natText_spec d.coefficient
  obtain ⟨hdigits, hhead⟩ :
      IsDigits (natText d.coefficient) ∧ (natText d.coefficient).head? ≠ some 0x30 := by
    refine hnat.resolve_left fun hzero => h ?_
    rw [← hvalue, hzero]
    rfl
  rw [Binary64.Decimal.value, ← hvalue, reprParts]
  by_cases hrange : -4 < (natText d.coefficient).length + d.exponent
      ∧ (natText d.coefficient).length + d.exponent ≤ 16
  · rw [if_pos hrange]
    split_ifs with hlow hinside
    · exact isParts_behind hdigits hlow
    · exact isParts_inside hdigits hhead (by omega) (by omega)
    · exact isParts_before hdigits hhead (by omega)
  · rw [if_neg hrange]
    exact isParts_exponent hdigits hhead

/-- A sign in front of the parts of a number. -/
lemma IsParts.isNumber {p : PyStr × PyStr × PyStr} {q : ℚ} (h : IsParts p q) (negative : Bool) :
    IsNumber ((if negative then [0x2d] else []) ++ p.1 ++ p.2.1 ++ p.2.2)
      (.decimal negative (Binary64.nearest q)) := by
  obtain ⟨c, t, hint, hc⟩ := exists_digit_of_isNat h.int
  have hdigit := isDigit_bounds hc
  cases negative with
  | false =>
      have hnumber := IsNumber.decimal (.inl h.int) h.frac h.exp h.decimal
      have hsign : p.1.head? ≠ some 0x2d := by
        rw [hint, List.head?_cons]
        intro heq
        have := Option.some.inj heq
        omega
      rw [decimalOf, h.magnitude, decide_eq_false hsign] at hnumber
      simpa using hnumber
  | true =>
      have hnumber := IsNumber.decimal (.inr ⟨p.1, rfl, h.int⟩) h.frac h.exp h.decimal
      have hmagnitude : Rfc8259.magnitude (0x2d :: p.1) p.2.1 p.2.2 = q := by
        rw [← h.magnitude, Rfc8259.magnitude, Rfc8259.magnitude, List.cons_append,
          List.filter_cons_of_neg (by decide)]
      rw [decimalOf, hmagnitude, List.head?_cons, decide_eq_true rfl] at hnumber
      simpa using hnumber

/-- A number of binary64 that is not negative is written as parts that are rounded to it. -/
lemma exists_isParts_floatParts {x : ℚ} (h : Binary64.Representable x) (hlt : |x| < 2 ^ 1024)
    (hnonneg : 0 ≤ x) : ∃ q, IsParts (floatParts x) q ∧ Binary64.nearest q = some x := by
  have hzero : Binary64.nearest 0 = some 0 :=
    Binary64.nearest_of_representable ⟨0, 0, by norm_num, by norm_num, by norm_num⟩ (by norm_num)
  rw [floatParts]
  split_ifs with hx
  · refine ⟨0, ⟨.inl rfl, .inr ⟨[0x30], rfl, by simp, by simp [isDigit]⟩, .inl rfl,
      .inl (by simp), ?_⟩, by rw [hx, hzero]⟩
    rw [magnitude_point (by simp [isDigit]) (by simp [isDigit])]
    simp [natOfDigits]
  · have hround := Binary64.nearest_shortest h hlt hnonneg
    refine ⟨_, isParts_reprParts fun hcoefficient => hx ?_, hround⟩
    rw [Binary64.Decimal.value, hcoefficient, Nat.cast_zero, zero_mul, hzero] at hround
    exact (Option.some.inj hround).symm

lemma magnitude_nonneg (i f e : PyStr) : 0 ≤ magnitude i f e :=
  mul_nonneg (Nat.cast_nonneg _) (zpow_nonneg (by norm_num) _)

/-- **A float** in the range of binary64 is written as a number of its value. -/
lemma isNumber_floatText {literal : PyStr} {negative : Bool} {x : ℚ}
    (h : floatNumber literal = .decimal negative (some x)) :
    IsNumber (floatText literal) (.decimal negative (some x)) := by
  have hround : ∃ q, 0 ≤ q ∧ Binary64.nearest q = some x := by
    rw [floatNumber] at h
    split at h
    · simp at h
    · exact ⟨_, magnitude_nonneg _ _ _, (Number.decimal.inj h).2⟩
  obtain ⟨q, hq, hround⟩ := hround
  obtain ⟨hrep, hlt⟩ := Binary64.representable_of_nearest hround
  obtain ⟨q', hparts, hround'⟩ :=
    exists_isParts_floatParts hrep hlt (Binary64.nearest_nonneg hround hq)
  have hnumber := hparts.isNumber negative
  rw [floatText, h]
  rwa [hround'] at hnumber

/-! ### The encoder -/

/-- `int.__repr__`, with its limit. -/
def intRepr (n : ℤ) : Except JsonError PyStr :=
  if maxStrDigits < (natText n.natAbs).length then .error .digits else .ok (intText n)

/-- `json.dumps(value, separators=(",", ":"))`; `depth` counts the containers that may still
be written in each other. -/
def dumps : ℕ → Json → Except JsonError PyStr
  | _, .null => .ok (py "null")
  | _, .bool b => .ok (if b then py "true" else py "false")
  | _, .int n => intRepr n
  | _, .float literal => .ok (floatText literal)
  | _, .str s => .ok (dumpsStr s)
  | d + 1, .arr elements => do
      let texts ← elements.mapM (dumps d)
      return 0x5b :: ([0x2c].intercalate texts ++ [0x5d])
  | d + 1, .obj members => do
      let texts ← members.mapM fun p => do
        let text ← dumps d p.2
        return dumpsStr p.1 ++ 0x3a :: text
      return 0x7b :: ([0x2c].intercalate texts ++ [0x7d])
  | 0, .arr _ => .error .recursion
  | 0, .obj _ => .error .recursion

example : dumps 2 (.obj [(py "a", .arr [.float (py "1E3"), .null])])
    = .ok (py "\x7b\"a\":[1000.0,null]\x7d") := by decide +kernel

/-- What a float is read as when it is written. -/
def printedNumber (literal : PyStr) : Number :=
  match floatNumber literal with
  | .decimal negative none => .literal (if negative then py "-Infinity" else py "Infinity")
  | n => n

/-! ### Strings -/

/-- A code unit that was escaped. -/
lemma unicodeEscape?_hex4 {n : ℕ} (h : n < 0x10000) (t : PyStr) :
    unicodeEscape? ([0x5c, 0x75] ++ hex4 n ++ t) = some (n, t) :=
  hex4?_hex4 h t

/-- Characters that begin with the escape of a low surrogate are those of a string that
begins with it. -/
lemma head?_of_isLow {t s t' : PyStr} {u : ℕ} (h : IsChars t s)
    (ht : unicodeEscape? t = some (u, t')) (hlow : IsLow u) : s.head? = some u := by
  have heq := (unicodeEscape?_split ht).2
  cases h with
  | nil =>
      obtain ⟨_, heq, -⟩ := heq
      simp at heq
  | unescaped _ _ _ hescape =>
      obtain ⟨_, heq, -⟩ := heq
      exact absurd (List.cons.inj heq).1 hescape
  | escape he =>
      obtain ⟨_, heq, -⟩ := heq
      obtain ⟨rfl, -⟩ := List.cons.inj (List.cons.inj heq).2
      simp [escape?] at he
  | unit hu =>
      rw [hu] at ht
      obtain ⟨rfl, -⟩ := Prod.mk.inj (Option.some.inj ht)
      rfl
  | pair hhi hhigh =>
      rw [hhi] at ht
      obtain ⟨rfl, -⟩ := Prod.mk.inj (Option.some.inj ht)
      obtain ⟨-, hmax⟩ := hhigh
      obtain ⟨hmin, -⟩ := hlow
      omega

/-- A character is escaped in front of characters. -/
lemma isChars_escapeAscii {c : ℕ} {t s : PyStr} (hc : Joined (c :: s)) (ht : IsChars t s) :
    IsChars (escapeAscii c ++ t) (c :: s) := by
  obtain ⟨hmax, hpair, -⟩ := hc
  rw [escapeAscii]
  split_ifs with h1 h2 h3 h4 h5 h6 h7 h8 h9
  · exact .escape (by simp [escape?, h1]) ht
  · exact .escape (by simp [escape?, h2]) ht
  · exact .escape (by simp [escape?, h3]) ht
  · exact .escape (by simp [escape?, h4]) ht
  · exact .escape (by simp [escape?, h5]) ht
  · exact .escape (by simp [escape?, h6]) ht
  · exact .escape (by simp [escape?, h7]) ht
  · exact .unescaped (.inl (by omega)) h8.1 h1 h2 ht
  · refine .unit (unicodeEscape?_hex4 h9 t) (fun lo t' hhigh hlo hlow => ?_) ht
    exact hpair lo (head?_of_isLow ht hlo hlow) ⟨hhigh, hlow⟩
  · have hhigh : IsHigh (0xd800 + (c - 0x10000) / 0x400) := ⟨by omega, by omega⟩
    have hlow : IsLow (0xdc00 + (c - 0x10000) % 0x400) := ⟨by omega, by omega⟩
    have hchars := IsChars.pair
      (unicodeEscape?_hex4 (by omega) ([0x5c, 0x75] ++ hex4 (0xdc00 + (c - 0x10000) % 0x400) ++ t))
      hhigh (unicodeEscape?_hex4 (by omega) t) hlow ht
    have hjoin : joinPair (0xd800 + (c - 0x10000) / 0x400) (0xdc00 + (c - 0x10000) % 0x400)
        = c := by
      unfold joinPair
      omega
    rw [hjoin] at hchars
    simpa using hchars

/-- **A string** is written as one. -/
lemma isString_dumpsStr {s : PyStr} (h : Joined s) : IsString (dumpsStr s) s := by
  refine ⟨s.flatMap escapeAscii, by simp [dumpsStr], ?_⟩
  induction s with
  | nil => exact .nil
  | cons c s ih =>
      rw [List.flatMap_cons]
      exact isChars_escapeAscii h (ih h.2.2)

/-! ### What is written -/

lemma mapM_eq_ok {α β : Type} {f : α → Except JsonError β} {l : List α} {ts : List β} :
    l.mapM f = .ok ts ↔ List.Forall₂ (fun a t => f a = .ok t) l ts := by
  induction l generalizing ts with
  | nil =>
      rw [List.mapM_nil, List.forall₂_nil_left_iff]
      exact ⟨fun h => (Except.ok.inj h).symm, fun h => congrArg Except.ok h.symm⟩
  | cons a l ih =>
      rw [List.mapM_cons, bind_eq_ok, List.forall₂_cons_left_iff]
      constructor
      · rintro ⟨t, ht, h⟩
        obtain ⟨ts', hts', h⟩ := bind_eq_ok.mp h
        exact ⟨t, ts', ht, ih.mp hts', (Except.ok.inj h).symm⟩
      · rintro ⟨t, ts', ht, hts', rfl⟩
        exact ⟨t, ht, bind_eq_ok.mpr ⟨ts', ih.mpr hts', rfl⟩⟩

/-- Items with commas between them. -/
lemma items_intercalate {β : Type} {Item : PyStr → β → Prop} {ts : List PyStr} {xs : List β}
    (h : List.Forall₂ Item ts xs) : Items Item ([0x2c].intercalate ts) xs := by
  have hws : IsWs [] := fun _ hc => absurd hc List.not_mem_nil
  cases h with
  | nil => exact .inl ⟨hws, rfl⟩
  | @cons t x ts xs hx h =>
      refine .inr ?_
      induction h generalizing t x with
      | nil => simpa using Separated.single hws hx hws
      | @cons t' x' ts xs hx' h ih =>
          rw [List.intercalate_cons_cons]
          simpa using Separated.cons hws hx hws (ih hx')

/-- Members of different names are the last ones of their names. -/
lemma lastValues_of_nodup {ν : Type} {ms : List (PyStr × ν)} (h : (ms.map Prod.fst).Nodup) :
    lastValues ms = ms := by
  have hupsert : ∀ (name : PyStr) (x : ν) (l : List (PyStr × ν)), name ∉ l.map Prod.fst →
      l.upsert name x = l ++ [(name, x)] := by
    intro name x l
    induction l with
    | nil => exact fun _ => rfl
    | cons q l ih =>
        intro hname
        rw [List.map_cons, List.mem_cons, not_or] at hname
        rw [List.upsert, if_neg (Ne.symm hname.1), ih hname.2]
        rfl
  have hfold : ∀ (ms l : List (PyStr × ν)), ((l ++ ms).map Prod.fst).Nodup →
      ms.foldl (fun d p => d.upsert p.1 p.2) l = l ++ ms := by
    intro ms
    induction ms with
    | nil => exact fun l _ => (List.append_nil l).symm
    | cons q ms ih =>
        intro l hl
        have hname : q.1 ∉ l.map Prod.fst := by
          rw [List.map_append, List.nodup_append] at hl
          exact fun hq => hl.2.2 _ hq _ List.mem_cons_self rfl
        rw [List.foldl_cons, hupsert q.1 q.2 l hname, ih, List.append_assoc]
        · rfl
        · simpa using hl
  exact hfold ms [] h

/-- The items of an array or an object, written one by one. -/
lemma items_of_mapM {α β : Type} {Item : PyStr → β → Prop} {f : α → Except JsonError PyStr}
    {g : α → β} {l : List α} {ts : List PyStr} (h : l.mapM f = .ok ts)
    (hitem : ∀ a ∈ l, ∀ t, f a = .ok t → Item t (g a)) :
    Items Item ([0x2c].intercalate ts) (l.map g) := by
  refine items_intercalate ?_
  have hall := mapM_eq_ok.mp h
  clear h
  induction hall with
  | nil => exact .nil
  | @cons a t l ts ht _ ih =>
      obtain ⟨ha, hl⟩ := List.forall_mem_cons.mp hitem
      exact .cons (ha t ht) (ih hl)

lemma intRepr_eq_ok {n : ℤ} {t : PyStr} : intRepr n = .ok t ↔ Short (.int n) ∧ t = intText n := by
  obtain ⟨hnat, hvalue⟩ := natText_spec n.natAbs
  have hlength := natOfDigits_lt_iff hnat maxStrDigits (by decide)
  rw [hvalue] at hlength
  rw [Short, hlength, intRepr]
  split_ifs with hlong
  · simp [hlong]
  · exact ⟨fun h => ⟨not_lt.mp hlong, (Except.ok.inj h).symm⟩, fun h => congrArg _ h.2.symm⟩

/-- The text of an array. -/
lemma dumps_arr_eq_ok {d : ℕ} {elements : List Json} {t : PyStr} :
    dumps d (.arr elements) = .ok t ↔ ∃ e ts, d = e + 1 ∧ elements.mapM (dumps e) = .ok ts ∧
      t = 0x5b :: ([0x2c].intercalate ts ++ [0x5d]) := by
  cases d with
  | zero => exact ⟨nofun, fun ⟨e, _, he, _⟩ => absurd he e.succ_ne_zero.symm⟩
  | succ d =>
      rw [dumps, bind_eq_ok]
      refine ⟨fun ⟨ts, hts, h⟩ => ⟨d, ts, rfl, hts, (Except.ok.inj h).symm⟩, ?_⟩
      rintro ⟨e, ts, he, hts, rfl⟩
      obtain rfl := Nat.succ.inj he
      exact ⟨ts, hts, rfl⟩

/-- The text of a member of an object. -/
def dumpsMember (d : ℕ) (p : PyStr × Json) : Except JsonError PyStr := do
  let text ← dumps d p.2
  return dumpsStr p.1 ++ 0x3a :: text

/-- The text of an object. -/
lemma dumps_obj_eq_ok {d : ℕ} {members : List (PyStr × Json)} {t : PyStr} :
    dumps d (.obj members) = .ok t ↔ ∃ e ts, d = e + 1 ∧ members.mapM (dumpsMember e) = .ok ts ∧
      t = 0x7b :: ([0x2c].intercalate ts ++ [0x7d]) := by
  cases d with
  | zero => exact ⟨nofun, fun ⟨e, _, he, _⟩ => absurd he e.succ_ne_zero.symm⟩
  | succ d =>
      rw [dumps, bind_eq_ok]
      refine ⟨fun ⟨ts, hts, h⟩ => ⟨d, ts, rfl, hts, (Except.ok.inj h).symm⟩, ?_⟩
      rintro ⟨e, ts, he, hts, rfl⟩
      obtain rfl := Nat.succ.inj he
      exact ⟨ts, hts, rfl⟩

section Writes

variable {Num : PyStr → Number → Prop} {float : PyStr → Number} {Good : Number → Prop}

/-- **What is written** is a value of a grammar that has the numbers that are written. -/
theorem isValue_dumps (hint : ∀ n, Short (.int n) → Num (intText n) (.int n))
    (hfloat : ∀ literal, Good (floatNumber literal) → Num (floatText literal) (float literal))
    {d d' : ℕ} {j : Json} {t : PyStr} (h : dumps d j = .ok t) (hj : Bounded Good d' j.value) :
    IsValue Num d t (j.valueWith float) := by
  have hws : IsWs [] := fun _ hc => absurd hc List.not_mem_nil
  induction d using Nat.strong_induction_on generalizing d' j t with
  | _ d ih =>
      -- induction on the depth, which `dumps` and the bound count down together
      rw [value] at hj
      cases j with
      | null =>
          rw [dumps] at h
          rw [valueWith, isValue_null, ← Except.ok.inj h]
      | bool b =>
          rw [dumps] at h
          rw [valueWith, isValue_bool, ← Except.ok.inj h]
      | int n =>
          rw [dumps] at h
          obtain ⟨hshort, rfl⟩ := intRepr_eq_ok.mp h
          rw [valueWith, isValue_number]
          exact hint n hshort
      | float literal =>
          rw [dumps] at h
          rw [valueWith, bounded_number] at hj
          rw [valueWith, isValue_number, ← Except.ok.inj h]
          exact hfloat literal hj
      | str s =>
          rw [dumps] at h
          rw [valueWith, bounded_string] at hj
          rw [valueWith, isValue_string, ← Except.ok.inj h]
          exact isString_dumpsStr hj
      | arr elements =>
          obtain ⟨e, ts, rfl, hts, rfl⟩ := dumps_arr_eq_ok.mp h
          rw [valueWith, bounded_array] at hj
          obtain ⟨e', rfl, hj⟩ := hj
          rw [valueWith]
          refine isValue_array.mpr ⟨e, _, rfl, rfl, items_of_mapM hts fun v hv t ht => ?_⟩
          exact ih e (Nat.lt_succ_self e) ht (hj _ (List.mem_map_of_mem hv))
      | obj members =>
          obtain ⟨e, ts, rfl, hts, rfl⟩ := dumps_obj_eq_ok.mp h
          rw [valueWith, bounded_object] at hj
          obtain ⟨e', rfl, hnodup, hj⟩ := hj
          rw [List.map_map] at hnodup
          rw [valueWith]
          refine isValue_object.mpr ⟨e, _, members.map fun p => (p.1, p.2.valueWith float), rfl,
            rfl, items_of_mapM hts fun p hp t ht => ?_, (lastValues_of_nodup ?_).symm⟩
          · obtain ⟨hname, hvalue⟩ := hj _ (List.mem_map_of_mem hp)
            obtain ⟨u, hu, ht⟩ := bind_eq_ok.mp ht
            rw [← Except.ok.inj ht]
            exact ⟨_, [], [], u, rfl, isString_dumpsStr hname, hws, hws,
              ih e (Nat.lt_succ_self e) hu hvalue⟩
          · rw [List.map_map]
            exact hnodup

end Writes

/-! ### When something is written -/

lemma exists_mapM {α β : Type} {f : α → Except JsonError β} {l : List α}
    (h : ∀ a ∈ l, ∃ t, f a = .ok t) : ∃ ts, l.mapM f = .ok ts := by
  induction l with
  | nil => exact ⟨[], rfl⟩
  | cons a l ih =>
      obtain ⟨⟨t, ht⟩, hl⟩ := List.forall_mem_cons.mp h
      obtain ⟨ts, hts⟩ := ih hl
      exact ⟨t :: ts, by rw [List.mapM_cons, ht, hts]; rfl⟩

/-- A value of short integers is written, if it is nested no deeper than the limit. -/
theorem exists_dumps {d : ℕ} {j : Json} (h : Bounded Short d j.value) :
    ∃ t, dumps d j = .ok t := by
  induction d using Nat.strong_induction_on generalizing j with
  | _ d ih =>
      rw [value] at h
      cases j with
      | null | bool | float | str => exact ⟨_, by rw [dumps]⟩
      | int n =>
          rw [valueWith, bounded_number] at h
          exact ⟨_, by rw [dumps]; exact intRepr_eq_ok.mpr ⟨h, rfl⟩⟩
      | arr elements =>
          rw [valueWith, bounded_array] at h
          obtain ⟨e, rfl, h⟩ := h
          obtain ⟨ts, hts⟩ := exists_mapM fun v hv =>
            ih e (Nat.lt_succ_self e) (h _ (List.mem_map_of_mem hv))
          exact ⟨_, dumps_arr_eq_ok.mpr ⟨e, ts, rfl, hts, rfl⟩⟩
      | obj members =>
          rw [valueWith, bounded_object] at h
          obtain ⟨e, rfl, -, h⟩ := h
          have hmember : ∀ p ∈ members, ∃ t, dumpsMember e p = .ok t := by
            intro p hp
            obtain ⟨t, ht⟩ := ih e (Nat.lt_succ_self e) (h _ (List.mem_map_of_mem hp)).2
            exact ⟨_, bind_eq_ok.mpr ⟨t, ht, rfl⟩⟩
          obtain ⟨ts, hts⟩ := exists_mapM hmember
          exact ⟨_, dumps_obj_eq_ok.mpr ⟨e, ts, rfl, hts, rfl⟩⟩

/-! ### What is JSON -/

/-- A number in the range of binary64, or an integer. -/
def Finite : Number → Prop
  | .int _ => True
  | .decimal _ magnitude => magnitude.isSome
  | .literal _ => False

/-- The number of a literal that the decoder reads. -/
def Decoded (n : Number) : Prop := ∃ t, ShortNumber t n

lemma floatNumber_ne_int (literal : PyStr) (n : ℤ) : floatNumber literal ≠ .int n := by
  rw [floatNumber]
  split <;> simp [decimalOf]

lemma not_literal_of_isNumber {t text : PyStr} : ¬IsNumber t (.literal text) := by
  intro h
  cases h

/-- A float in the range is written as a number of its value. -/
lemma isNumber_of_finite {literal : PyStr} (h : Finite (floatNumber literal)) :
    IsNumber (floatText literal) (floatNumber literal) := by
  cases hvalue : floatNumber literal with
  | int n => exact absurd hvalue (floatNumber_ne_int literal n)
  | literal text =>
      rw [hvalue] at h
      exact absurd h id
  | decimal negative magnitude =>
      rw [hvalue] at h
      obtain ⟨x, rfl⟩ := Option.isSome_iff_exists.mp h
      exact isNumber_floatText hvalue

/-- Any float is written as a number of the decoder. -/
lemma shortNumber_floatText {literal : PyStr} (h : Decoded (floatNumber literal)) :
    ShortNumber (floatText literal) (printedNumber literal) := by
  rw [printedNumber]
  cases hvalue : floatNumber literal with
  | int n => exact absurd hvalue (floatNumber_ne_int literal n)
  | literal text =>
      rw [hvalue] at h
      obtain ⟨t, ht, -⟩ := h
      rw [floatText, hvalue]
      cases ht with
      | number hnumber => exact absurd hnumber not_literal_of_isNumber
      | special hspecial => exact ⟨.special hspecial, trivial⟩
  | decimal negative magnitude =>
      cases magnitude with
      | some x => exact ⟨.number (isNumber_floatText hvalue), trivial⟩
      | none =>
          rw [floatText, hvalue]
          cases negative
          · exact ⟨.special (by simp [specials]), trivial⟩
          · exact ⟨.special (by simp [specials]), trivial⟩

/-- A number that RFC 8259 has. -/
def Standard (n : Number) : Prop := ∃ t, IsNumber t n

lemma finite_of_printed {literal : PyStr} (h : Standard (printedNumber literal)) :
    Finite (floatNumber literal) := by
  obtain ⟨t, ht⟩ := h
  rw [printedNumber] at ht
  cases hvalue : floatNumber literal with
  | int n => trivial
  | literal text =>
      rw [hvalue] at ht
      exact absurd ht not_literal_of_isNumber
  | decimal negative magnitude =>
      cases magnitude with
      | some x => rfl
      | none =>
          rw [hvalue] at ht
          exact absurd ht not_literal_of_isNumber

/-- What is written without a literal has floats in the range. -/
lemma bounded_finite {d : ℕ} {j : Json} (h : Bounded Standard d (j.valueWith printedNumber)) :
    Bounded Finite d j.value := by
  induction d using Nat.strong_induction_on generalizing j with
  | _ d ih =>
      rw [value]
      cases j with
      | null =>
          rw [valueWith]
          exact bounded_null
      | bool b =>
          rw [valueWith]
          exact bounded_bool b
      | int n =>
          rw [valueWith, bounded_number]
          trivial
      -- a number that was printed is finite
      | float literal =>
          rw [valueWith, bounded_number] at h ⊢
          exact finite_of_printed h
      | str s =>
          rw [valueWith, bounded_string] at h ⊢
          exact h
      | arr elements =>
          rw [valueWith, bounded_array] at h ⊢
          obtain ⟨e, rfl, h⟩ := h
          refine ⟨e, rfl, fun v hv => ?_⟩
          obtain ⟨j, hj, rfl⟩ := List.mem_map.mp hv
          exact ih e (Nat.lt_succ_self e) (h _ (List.mem_map_of_mem hj))
      | obj members =>
          rw [valueWith, bounded_object] at h ⊢
          obtain ⟨e, rfl, hnodup, h⟩ := h
          rw [List.map_map] at hnodup ⊢
          refine ⟨e, rfl, hnodup, fun p hp => ?_⟩
          obtain ⟨q, hq, rfl⟩ := List.mem_map.mp hp
          obtain ⟨hname, hvalue⟩ := h _ (List.mem_map_of_mem hq)
          exact ⟨hname, ih e (Nat.lt_succ_self e) hvalue⟩

lemma isText_of_isValue {Num : PyStr → Number → Prop} {d : ℕ} {t : PyStr} {v : Value}
    (h : IsValue Num d t v) : IsText Num t v := by
  have hws : IsWs [] := fun _ hc => absurd hc List.not_mem_nil
  exact ⟨d, [], t, [], by simp, hws, h, hws⟩

/-- **What is written is JSON**, and has the value that was decoded, just if the value is
nested no deeper than the limit and its floats are in the range of binary64. -/
theorem isJson_dumps_iff {d d' : ℕ} {j : Json} (hj : Bounded Decoded d' j.value) :
    (∃ t, dumps d j = .ok t ∧ IsJson t j.value) ↔ Bounded Finite d j.value := by
  constructor
  · rintro ⟨t, ht, hjson⟩
    have hprinted : IsValue ShortNumber d t (j.valueWith printedNumber) :=
      isValue_dumps (fun n hn => ⟨.number (isNumber_intText n), hn⟩)
        (fun _ => shortNumber_floatText) ht hj
    have heq : j.value = j.valueWith printedNumber :=
      isText_unique (hjson.mono fun _ _ => .number) (isText_of_isValue hprinted)
    obtain ⟨D, a, u, b, -, -, hu, -⟩ := hjson
    have hstandard : Bounded Standard D (j.valueWith printedNumber) :=
      heq ▸ hu.bounded fun t n hn => ⟨t, hn⟩
    have hdepth : Bounded (fun _ => True) d (j.valueWith printedNumber) :=
      hprinted.bounded fun _ _ _ => trivial
    exact bounded_finite (hdepth.and hstandard fun _ _ hn => hn)
  · intro h
    obtain ⟨t, ht⟩ := exists_dumps (h.and hj fun _ _ ⟨_, hn⟩ => hn.2)
    have hvalue : IsValue IsNumber d t j.value :=
      isValue_dumps (fun n _ => isNumber_intText n) (fun _ => isNumber_of_finite) ht h
    exact ⟨t, ht, isText_of_isValue hvalue⟩

end Json
