import Mathlib.Data.Nat.Digits.Defs
import Mathlib.Tactic.Common

/-!
Python's `bytes`: white space, searching, and numbers as text.

* `strip`, `lstrip`, `find`: what the methods of these names do.
* `pyInt`: `int(b, base)` for bases 10 and 16, with the white space, signs,
  prefixes and underscores that it accepts.
* `format`: a number in a base, as `str` and the format `x` print it.
* `pyInt_digits`: a number in digits is read; `pyInt_format`: so is one that is
  printed in base 16.
-/

namespace ByteStr

/-- A byte string, unbounded. -/
abbrev Bytes := List UInt8

/-- Membership tests on byte strings decide equality through this instance. -/
instance instLawfulBEqBytes : LawfulBEq Bytes := inferInstance

/-- `sys.maxsize`: no object is longer. -/
def maxsize : ℕ := 2 ^ 63 - 1

/-- A `bytes` object. -/
structure PyBytes where
  bytes : Bytes
  bounded : bytes.length ≤ maxsize

/-! ### White space and searching -/

/-- `bytes.isspace` on one byte. -/
def isSpace (c : UInt8) : Bool := c = 0x20 ∨ (0x09 ≤ c ∧ c ≤ 0x0d)

/-- `bytes.lstrip`. -/
def lstrip (s : Bytes) : Bytes := s.dropWhile isSpace

/-- `bytes.rstrip`. -/
def rstrip (s : Bytes) : Bytes := (s.reverse.dropWhile isSpace).reverse

/-- `bytes.strip`. -/
def strip (s : Bytes) : Bytes := rstrip (lstrip s)

/-- `bytes.find`, with `none` for -1. -/
def find (sep : Bytes) : Bytes → Option ℕ
  | [] => if sep = [] then some 0 else none
  | c :: s => if sep.isPrefixOf (c :: s) then some 0 else (find sep s).map (· + 1)

/-- The first line, with its line end if it has one. -/
def firstLine (s : Bytes) : Bytes :=
  match find [0x0a] s with
  | none => s
  | some i => s.take (i + 1)

/-! ### Numbers -/

/-- The value of a byte as a digit, 37 if it is none. -/
def digitValue (c : UInt8) : ℕ :=
  if 0x30 ≤ c ∧ c ≤ 0x39 then c.toNat - 0x30
  else if 0x61 ≤ c ∧ c ≤ 0x7a then c.toNat - 0x57
  else if 0x41 ≤ c ∧ c ≤ 0x5a then c.toNat - 0x37
  else 37

/-- Digits with single underscores between them. No underscore may come next if
`gap` is true, and no end. -/
def scanDigits (base : ℕ) (gap : Bool) : Bytes → Option (List ℕ)
  | [] => if gap then none else some []
  | c :: s =>
      if c = 0x5f then if gap then none else scanDigits base true s
      else if digitValue c < base then (scanDigits base false s).map (digitValue c :: ·)
      else none

/-- The sign of a number, and what follows it. -/
def scanSign : Bytes → Bool × Bytes
  | 0x2b :: s => (false, s)
  | 0x2d :: s => (true, s)
  | s => (false, s)

/-- The prefix `0x` of base 16 is skipped, and an underscore after it. -/
def scanBase (base : ℕ) : Bytes → Bytes
  | 0x30 :: x :: s =>
      if base = 16 ∧ (x = 0x78 ∨ x = 0x58) then
        match s with
        | 0x5f :: s => s
        | s => s
      else 0x30 :: x :: s
  | s => s

/-- The number that digits stand for, the first being the highest. -/
def ofDigits (base : ℕ) (ds : List ℕ) : ℕ := ds.foldl (fun n d => n * base + d) 0

/-- `sys.int_info.default_max_str_digits`, for bases that are no power of two. -/
def maxDigits : ℕ := 4300

/-- `int(s, base)` for base 10 or 16, with `none` for a `ValueError`. -/
def pyInt (base : ℕ) (s : Bytes) : Option ℤ :=
  let (negative, s) := scanSign (strip s)
  match scanDigits base true (scanBase base s) with
  | none => none
  | some ds =>
      if base = 10 ∧ maxDigits < ds.length then none
      else some (if negative then -(ofDigits base ds : ℤ) else ofDigits base ds)

/-- A digit as a byte. -/
def digitByte (d : ℕ) : UInt8 := if d < 10 then UInt8.ofNat (0x30 + d) else UInt8.ofNat (0x57 + d)

/-- A number in a base. -/
def format (base n : ℕ) : Bytes :=
  if n = 0 then [0x30] else (Nat.digits base n).reverse.map digitByte

/-! ### Reading what was printed -/

lemma digitByte_spec : ∀ d < 16, digitValue (digitByte d) = d ∧ digitByte d ≠ 0x5f ∧
    ¬isSpace (digitByte d) ∧ digitByte d ≠ 0x2b ∧ digitByte d ≠ 0x2d ∧ digitByte d ≠ 0x78 ∧
    digitByte d ≠ 0x58 ∧ digitByte d ≠ 0x3b ∧ digitByte d ≠ 0x0a := by
  decide

lemma mem_format {base n : ℕ} (hbase : 1 < base) (h16 : base ≤ 16) {c : UInt8}
    (h : c ∈ format base n) : ∃ d < 16, c = digitByte d := by
  rw [format] at h
  split_ifs at h
  · exact ⟨0, by decide, List.mem_singleton.mp h⟩
  · obtain ⟨d, hd, rfl⟩ := List.mem_map.mp h
    have hlt := Nat.digits_lt_base hbase (List.mem_reverse.mp hd)
    exact ⟨d, by omega, rfl⟩

lemma format_ne_nil {base n : ℕ} : format base n ≠ [] := by
  rw [format]
  split_ifs with hn
  · simp
  · simpa using Nat.digits_ne_nil_iff_ne_zero.mpr hn

/-- What a byte with the value of a digit is not. -/
lemma of_digitValue_lt {base : ℕ} (h16 : base ≤ 16) {c : UInt8} (h : digitValue c < base) :
    ¬isSpace c ∧ c ≠ 0x5f ∧ c ≠ 0x2b ∧ c ≠ 0x2d ∧ c ≠ 0x78 ∧ c ≠ 0x58 ∧ c ≠ 0x3b ∧ c ≠ 0x0a := by
  have hne : ∀ d, 16 ≤ digitValue d → c ≠ d := by
    rintro d hd rfl
    omega
  refine ⟨fun hspace => ?_, hne _ (by decide), hne _ (by decide), hne _ (by decide),
    hne _ (by decide), hne _ (by decide), hne _ (by decide), hne _ (by decide)⟩
  have hlow : c.toNat ≤ 0x20 := by
    simp only [isSpace, Bool.decide_or, Bool.decide_and, Bool.or_eq_true, Bool.and_eq_true,
      decide_eq_true_eq, UInt8.le_iff_toNat_le, ← UInt8.toNat_inj, UInt8.reduceToNat] at hspace
    omega
  have hnone : digitValue c = 37 := by
    simp only [digitValue, UInt8.le_iff_toNat_le, UInt8.reduceToNat]
    rw [if_neg (by omega), if_neg (by omega), if_neg (by omega)]
  omega

lemma scanDigits_of_lt {base : ℕ} (h16 : base ≤ 16) {s : Bytes}
    (h : ∀ c ∈ s, digitValue c < base) : scanDigits base false s = some (s.map digitValue) := by
  induction s with
  | nil => rfl
  | cons c s ih =>
      rw [List.forall_mem_cons] at h
      obtain ⟨-, hgap, -⟩ := of_digitValue_lt h16 h.1
      rw [scanDigits, if_neg hgap, if_pos h.1, ih h.2]
      rfl

/-- The first digit may be read after a gap. -/
lemma scanDigits_gap {base : ℕ} {c : UInt8} {s : Bytes} (hc : c ≠ 0x5f) (gap : Bool) :
    scanDigits base gap (c :: s) = scanDigits base false (c :: s) := by
  rw [scanDigits, scanDigits, if_neg hc, if_neg hc]

lemma ofDigits_reverse_digits (base n : ℕ) : ofDigits base (Nat.digits base n).reverse = n := by
  rw [ofDigits, List.foldl_reverse]
  calc (Nat.digits base n).foldr (fun d n => n * base + d) 0
      = (Nat.digits base n).foldr (fun d n => (d : ℕ) + base * n) 0 := by
        congr 1
        funext d n
        rw [Nat.mul_comm, Nat.add_comm]
    _ = Nat.ofDigits base (Nat.digits base n) := (Nat.ofDigits_eq_foldr base _).symm
    _ = n := Nat.ofDigits_digits base n

/-- Space after a number is stripped. -/
lemma strip_append {s t : Bytes} (hs : s ≠ []) (h : ∀ c ∈ s, ¬isSpace c) (ht : ∀ c ∈ t, isSpace c) :
    strip (s ++ t) = s := by
  obtain ⟨c, s', rfl⟩ := List.exists_cons_of_ne_nil hs
  have hc : ¬isSpace c := h c List.mem_cons_self
  have hleft : lstrip (c :: s' ++ t) = c :: s' ++ t := by simp [lstrip, hc]
  have hright : (t.reverse ++ (c :: s').reverse).dropWhile isSpace = (c :: s').reverse := by
    rw [List.dropWhile_append_of_pos (by simpa using ht)]
    have hrev : ∀ b ∈ (c :: s').reverse, ¬isSpace b := fun b hb => h b (List.mem_reverse.mp hb)
    cases hrev' : (c :: s').reverse with
    | nil => rfl
    | cons b l => simp [hrev b (by simp [hrev'])]
  rw [strip, hleft, rstrip, List.reverse_append, hright, List.reverse_reverse]

lemma scanSign_of_ne {c : UInt8} {s : Bytes} (hplus : c ≠ 0x2b) (hminus : c ≠ 0x2d) :
    scanSign (c :: s) = (false, c :: s) := by
  rw [scanSign.eq_def]
  split <;> simp_all

lemma scanBase_of_ne {base : ℕ} {c : UInt8} {s : Bytes} (h : ∀ x ∈ s, x ≠ 0x78 ∧ x ≠ 0x58) :
    scanBase base (c :: s) = c :: s := by
  rw [scanBase.eq_def]
  split
  · rename_i x t heq
    obtain ⟨rfl, rfl⟩ := List.cons.inj heq
    obtain ⟨hx, hX⟩ := h x List.mem_cons_self
    rw [if_neg (by simp [hx, hX])]
  · rfl

/-- **A number in digits** is read, with space after it. -/
theorem pyInt_digits {base : ℕ} (h16 : base ≤ 16) {s t : Bytes} (hs : s ≠ [])
    (h : ∀ c ∈ s, digitValue c < base) (ht : ∀ c ∈ t, isSpace c) :
    pyInt base (s ++ t) = if base = 10 ∧ maxDigits < s.length then none
      else some (ofDigits base (s.map digitValue) : ℤ) := by
  have hspace : ∀ c ∈ s, ¬isSpace c := fun c hc => (of_digitValue_lt h16 (h c hc)).1
  have hstrip := strip_append hs hspace ht
  obtain ⟨c, s, rfl⟩ := List.exists_cons_of_ne_nil hs
  obtain ⟨-, hgap, hplus, hminus, -⟩ := of_digitValue_lt h16 (h c List.mem_cons_self)
  have hbase : scanBase base (c :: s) = c :: s := by
    refine scanBase_of_ne fun x hx => ?_
    obtain ⟨-, -, -, -, hx, hX, -⟩ := of_digitValue_lt h16 (h x (List.mem_cons_of_mem c hx))
    exact ⟨hx, hX⟩
  rw [pyInt, hstrip, scanSign_of_ne hplus hminus]
  dsimp only
  rw [hbase, scanDigits_gap hgap, scanDigits_of_lt h16 h]
  simp

lemma ofDigits_format {base : ℕ} (hbase : 1 < base) (h16 : base ≤ 16) (n : ℕ) :
    ofDigits base ((format base n).map digitValue) = n := by
  rw [format]
  split_ifs with hn
  · simp [ofDigits, digitValue, hn]
  · have hdigits : ((Nat.digits base n).reverse.map digitByte).map digitValue
        = (Nat.digits base n).reverse := by
      rw [List.map_map]
      refine (List.map_congr_left fun d hd => ?_).trans (List.map_id _)
      have hlt := Nat.digits_lt_base hbase (List.mem_reverse.mp hd)
      exact (digitByte_spec d (by omega)).1
    rw [hdigits, ofDigits_reverse_digits]

/-- **A number in base 16** is read back, with space after it. -/
theorem pyInt_format {n : ℕ} {t : Bytes} (ht : ∀ c ∈ t, isSpace c) :
    pyInt 16 (format 16 n ++ t) = some (n : ℤ) := by
  have hdigit : ∀ c ∈ format 16 n, digitValue c < 16 := by
    intro c hc
    obtain ⟨d, hd, rfl⟩ := mem_format (by decide) le_rfl hc
    rw [(digitByte_spec d hd).1]
    exact hd
  rw [pyInt_digits le_rfl format_ne_nil hdigit ht, if_neg (by simp),
    ofDigits_format (by decide) le_rfl]

end ByteStr
