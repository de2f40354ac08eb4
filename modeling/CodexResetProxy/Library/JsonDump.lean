import Mathlib.Tactic.IntervalCases
import CodexResetProxy.Library.Json

/-!
Python's `json.dumps` of strings and of lists of pairs of strings, with
`ensure_ascii` and the compact separators.

* `dumpsStr`: a string literal; every character outside printable ASCII is
  escaped.
* `scanString_dumpsStr`: the decoder reads back what was written, in front of
  any text, as long as no character is a surrogate or beyond the surrogates.
* `dumpsPairs_injective`: different lists of pairs are written differently.
-/

namespace Json

/-- A digit of `format(n, "x")`. -/
def hexChar (n : ℕ) : ℕ := if n < 10 then 0x30 + n else 0x57 + n

/-- `format(n, "04x")` of a number below `0x10000`. -/
def hex4 (n : ℕ) : PyStr :=
  [hexChar (n / 4096 % 16), hexChar (n / 256 % 16), hexChar (n / 16 % 16), hexChar (n % 16)]

/-- The replacement of a character in a literal (`ESCAPE_DCT` and `\uXXXX`). -/
def escapeAscii (c : ℕ) : PyStr :=
  if c = 0x22 then [0x5c, 0x22]
  else if c = 0x5c then [0x5c, 0x5c]
  else if c = 0x0a then [0x5c, 0x6e]
  else if c = 0x0d then [0x5c, 0x72]
  else if c = 0x09 then [0x5c, 0x74]
  else if c = 0x0c then [0x5c, 0x66]
  else if c = 0x08 then [0x5c, 0x62]
  else if 0x20 ≤ c ∧ c ≤ 0x7e then [c]
  else if c < 0x10000 then [0x5c, 0x75] ++ hex4 c
  else
    [0x5c, 0x75] ++ hex4 (0xd800 + (c - 0x10000) / 0x400) ++
      ([0x5c, 0x75] ++ hex4 (0xdc00 + (c - 0x10000) % 0x400))

/-- `json.dumps` of a string. -/
def dumpsStr (s : PyStr) : PyStr := [0x22] ++ s.flatMap escapeAscii ++ [0x22]

/-- `json.dumps` of a pair of strings, as an array. -/
def dumpsPair (p : PyStr × PyStr) : PyStr :=
  [0x5b] ++ dumpsStr p.1 ++ [0x2c] ++ dumpsStr p.2 ++ [0x5d]

/-- The elements of an array after the first, each behind its comma. -/
def dumpsTail (l : List (PyStr × PyStr)) : PyStr := l.flatMap fun p => [0x2c] ++ dumpsPair p

/-- `json.dumps(pairs, separators=(",", ":"), ensure_ascii=True)`. -/
def dumpsPairs : List (PyStr × PyStr) → PyStr
  | [] => [0x5b, 0x5d]
  | p :: l => [0x5b] ++ dumpsPair p ++ dumpsTail l ++ [0x5d]

example : dumpsPairs [(py "a", py "\"\u00e9"), ([], [])]
    = py "[[\"a\",\"\\\"\\u00e9\"],[\"\",\"\"]]" := by
  decide

/-! ### What is written is ASCII -/

lemma hexChar_lt {n : ℕ} (h : n < 16) : hexChar n < 0x80 := by
  rw [hexChar]
  split_ifs <;> omega

lemma lt_of_mem_hex4 {n c : ℕ} (h : c ∈ hex4 n) : c < 0x80 := by
  have hlt : ∀ k, hexChar (k % 16) < 0x80 := fun k => hexChar_lt (Nat.mod_lt _ (by decide))
  simp only [hex4, List.mem_cons, List.not_mem_nil, or_false] at h
  rcases h with rfl | rfl | rfl | rfl <;> exact hlt _

lemma lt_of_mem_escapeAscii {n c : ℕ} (h : c ∈ escapeAscii n) : c < 0x80 := by
  have hpair : ∀ {e : ℕ}, e < 0x80 → c ∈ [0x5c, e] → c < 0x80 := by
    intro e he hc
    simp only [List.mem_cons, List.not_mem_nil, or_false] at hc
    omega
  have hunicode : ∀ {k : ℕ}, c ∈ [0x5c, 0x75] ++ hex4 k → c < 0x80 := by
    intro k hc
    rcases List.mem_append.mp hc with hc | hc
    · exact hpair (by decide) hc
    · exact lt_of_mem_hex4 hc
  rw [escapeAscii] at h
  split_ifs at h with h1 h2 h3 h4 h5 h6 h7 h8 h9
  · exact hpair (by decide) h
  · exact hpair (by decide) h
  · exact hpair (by decide) h
  · exact hpair (by decide) h
  · exact hpair (by decide) h
  · exact hpair (by decide) h
  · exact hpair (by decide) h
  · obtain rfl := List.mem_singleton.mp h
    omega
  · exact hunicode h
  · exact (List.mem_append.mp h).elim hunicode hunicode

lemma lt_of_mem_dumpsStr {s : PyStr} {c : ℕ} (h : c ∈ dumpsStr s) : c < 0x80 := by
  simp only [dumpsStr, List.mem_append, List.mem_singleton, List.mem_flatMap] at h
  rcases h with (rfl | ⟨d, _, h⟩) | rfl
  · decide
  · exact lt_of_mem_escapeAscii h
  · decide

lemma lt_of_mem_dumpsPair {p : PyStr × PyStr} {c : ℕ} (h : c ∈ dumpsPair p) : c < 0x80 := by
  simp only [dumpsPair, List.mem_append, List.mem_singleton] at h
  rcases h with (((rfl | h) | rfl) | h) | rfl
  · decide
  · exact lt_of_mem_dumpsStr h
  · decide
  · exact lt_of_mem_dumpsStr h
  · decide

/-- What is written is ASCII. -/
theorem lt_of_mem_dumpsPairs {l : List (PyStr × PyStr)} {c : ℕ} (h : c ∈ dumpsPairs l) :
    c < 0x80 := by
  cases l with
  | nil =>
      simp only [dumpsPairs, List.mem_cons, List.not_mem_nil, or_false] at h
      omega
  | cons p l =>
      simp only [dumpsPairs, dumpsTail, List.mem_append, List.mem_singleton,
        List.mem_flatMap] at h
      rcases h with ((rfl | h) | ⟨q, _, rfl | h⟩) | rfl
      · decide
      · exact lt_of_mem_dumpsPair h
      · decide
      · exact lt_of_mem_dumpsPair h
      · decide

/-! ### Reading back -/

lemma hexDigit?_hexChar {n : ℕ} (h : n < 16) : hexDigit? (hexChar n) = some n := by
  interval_cases n <;> decide

lemma hex4?_hex4 {n : ℕ} (h : n < 0x10000) (t : PyStr) : hex4? (hex4 n ++ t) = some (n, t) := by
  have hsum : ((n / 4096 % 16 * 16 + n / 256 % 16) * 16 + n / 16 % 16) * 16 + n % 16 = n := by
    omega
  rw [hex4]
  simp only [List.cons_append, List.nil_append, hex4?]
  rw [hexDigit?_hexChar (Nat.mod_lt _ (by decide)), hexDigit?_hexChar (Nat.mod_lt _ (by decide)),
    hexDigit?_hexChar (Nat.mod_lt _ (by decide)), hexDigit?_hexChar (Nat.mod_lt _ (by decide))]
  simp only [hsum]

lemma scanEscape_unicode {c : ℕ} (hc : c < 0xd800) {t : PyStr} (ht : t ≠ []) :
    scanEscape ([0x75] ++ hex4 c ++ t) = .ok (c, t) := by
  rw [List.append_assoc, List.singleton_append, scanEscape, if_pos rfl]
  refine (ReadsUnit.lone (hex4?_hex4 (by omega) t) ht fun t' hge _ _ _ => ?_).scanned
  omega

/-- One character, read in front of a text that is read already. -/
lemma scanStringFrom_escapeAscii {n c : ℕ} {t xs r : PyStr} (hc : c < 0xd800)
    (h : scanStringFrom n t = .ok (xs, r)) :
    scanStringFrom (n + 1) (escapeAscii c ++ t) = .ok (c :: xs, r) := by
  have hescape : ∀ {e : ℕ}, e ≠ 0x75 → escape? e = some c →
      scanStringFrom (n + 1) ([0x5c, e] ++ t) = .ok (c :: xs, r) := by
    intro e hu he
    simp [scanStringFrom, scanEscape, hu, he, h, bind, Except.bind, pure, Except.pure]
  rw [escapeAscii]
  split_ifs with h1 h2 h3 h4 h5 h6 h7 h8 h9
  · exact hescape (by decide) (by simp [escape?, h1])
  · exact hescape (by decide) (by simp [escape?, h2])
  · exact hescape (by decide) (by simp [escape?, h3])
  · exact hescape (by decide) (by simp [escape?, h4])
  · exact hescape (by decide) (by simp [escape?, h5])
  · exact hescape (by decide) (by simp [escape?, h6])
  · exact hescape (by decide) (by simp [escape?, h7])
  · have hlow : ¬ c < 0x20 := by omega
    simp [scanStringFrom, h1, h2, hlow, h, bind, Except.bind, pure, Except.pure]
  · have hne : t ≠ [] := by
      rintro rfl
      cases n <;> simp [scanStringFrom] at h
    have hread := scanEscape_unicode hc hne
    simp only [List.cons_append, List.nil_append, scanStringFrom] at hread ⊢
    simp [hread, h, bind, Except.bind, pure, Except.pure]
  · omega

/-- **Strings are read back** in front of any text. -/
theorem scanString_dumpsStr {s : PyStr} (hs : ∀ c ∈ s, c < 0xd800) (r : PyStr) :
    scanString (s.flatMap escapeAscii ++ 0x22 :: r) = .ok (s, r) := by
  have hread : ∃ n, scanStringFrom n (s.flatMap escapeAscii ++ 0x22 :: r) = .ok (s, r) := by
    induction s with
    | nil => exact ⟨1, by simp [scanStringFrom]⟩
    | cons c s ih =>
        rw [List.forall_mem_cons] at hs
        obtain ⟨n, hn⟩ := ih hs.2
        refine ⟨n + 1, ?_⟩
        rw [List.flatMap_cons, List.append_assoc]
        exact scanStringFrom_escapeAscii hs.1 hn
  obtain ⟨n, hn⟩ := hread
  exact scanString_of_scanStringFrom hn

/-- Literals in front of a text are told apart. -/
lemma dumpsStr_append_inj {s s' r r' : PyStr} (hs : ∀ c ∈ s, c < 0xd800)
    (hs' : ∀ c ∈ s', c < 0xd800) (h : dumpsStr s ++ r = dumpsStr s' ++ r') :
    s = s' ∧ r = r' := by
  have htail : s.flatMap escapeAscii ++ 0x22 :: r = s'.flatMap escapeAscii ++ 0x22 :: r' := by
    simpa [dumpsStr] using h
  have hread := scanString_dumpsStr hs r
  rw [htail, scanString_dumpsStr hs' r'] at hread
  obtain ⟨rfl, rfl⟩ : s' = s ∧ r' = r := by simpa using hread
  exact ⟨rfl, rfl⟩

/-- A pair of strings without surrogates, below them all. -/
def Plain (p : PyStr × PyStr) : Prop := (∀ c ∈ p.1, c < 0xd800) ∧ ∀ c ∈ p.2, c < 0xd800

lemma dumpsPair_append_inj {p p' : PyStr × PyStr} {r r' : PyStr} (hp : Plain p) (hp' : Plain p')
    (h : dumpsPair p ++ r = dumpsPair p' ++ r') : p = p' ∧ r = r' := by
  have h1 : dumpsStr p.1 ++ ([0x2c] ++ dumpsStr p.2 ++ [0x5d] ++ r)
      = dumpsStr p'.1 ++ ([0x2c] ++ dumpsStr p'.2 ++ [0x5d] ++ r') := by
    simpa [dumpsPair] using h
  obtain ⟨hfst, h2⟩ := dumpsStr_append_inj hp.1 hp'.1 h1
  have h3 : dumpsStr p.2 ++ ([0x5d] ++ r) = dumpsStr p'.2 ++ ([0x5d] ++ r') := by
    simpa using h2
  obtain ⟨hsnd, h4⟩ := dumpsStr_append_inj hp.2 hp'.2 h3
  exact ⟨Prod.ext hfst hsnd, by simpa using h4⟩

lemma dumpsTail_inj {l l' : List (PyStr × PyStr)} (hl : ∀ p ∈ l, Plain p)
    (hl' : ∀ p ∈ l', Plain p) (h : dumpsTail l ++ [0x5d] = dumpsTail l' ++ [0x5d]) : l = l' := by
  induction l generalizing l' with
  | nil =>
      cases l' with
      | nil => rfl
      | cons p' l' => simp [dumpsTail] at h
  | cons p l ih =>
      cases l' with
      | nil => simp [dumpsTail] at h
      | cons p' l' =>
          rw [List.forall_mem_cons] at hl hl'
          have h1 : dumpsPair p ++ (dumpsTail l ++ [0x5d])
              = dumpsPair p' ++ (dumpsTail l' ++ [0x5d]) := by
            simpa [dumpsTail] using h
          obtain ⟨rfl, h2⟩ := dumpsPair_append_inj hl.1 hl'.1 h1
          rw [ih hl.2 hl'.2 h2]

/-- **Lists of pairs are written differently** unless they are the same. -/
theorem dumpsPairs_injective {l l' : List (PyStr × PyStr)} (hl : ∀ p ∈ l, Plain p)
    (hl' : ∀ p ∈ l', Plain p) (h : dumpsPairs l = dumpsPairs l') : l = l' := by
  cases l with
  | nil =>
      cases l' with
      | nil => rfl
      | cons p' l' => simp [dumpsPairs, dumpsPair] at h
  | cons p l =>
      cases l' with
      | nil => simp [dumpsPairs, dumpsPair] at h
      | cons p' l' =>
          rw [List.forall_mem_cons] at hl hl'
          have h1 : dumpsPair p ++ (dumpsTail l ++ [0x5d])
              = dumpsPair p' ++ (dumpsTail l' ++ [0x5d]) := by
            simpa [dumpsPairs] using h
          obtain ⟨rfl, h2⟩ := dumpsPair_append_inj hl.1 hl'.1 h1
          rw [dumpsTail_inj hl.2 hl'.2 h2]

end Json
