import Mathlib.Data.List.Basic
import Mathlib.Data.List.TakeWhile
import Mathlib.Data.Nat.Find
import Mathlib.Tactic.Common

/-!
Python's `str`: sequences of code points, lone surrogates included.

* `PyStr`: a list of code points; `py` reads a Lean literal, whose characters
  are Unicode scalar values.
* `breakLines`: the lines of a text for a set of break characters, CR LF being
  one break; `breakLines_append_lf` takes a text apart at an LF and
  `flatMap_breakLines` puts the lines together again; `prefix_breakLines` is about
  a text that is cut off. `splitlines`, Python's `str.splitlines()`, breaks at the
  ten characters of `isLineBreak`.
* `encodeUtf8`: `str.encode("utf-8")`, which fails on a surrogate;
  `decodeUtf8`: `bytes.decode("utf-8")`; `decodeUtf8_encodeUtf8` is the round
  trip and `encodeUtf8_append` its compatibility with concatenation.
* `decodeSoFar`: what an incremental decoder has decoded of bytes that are cut off,
  maybe within a character; `prefix_decodeSoFar`: more bytes only add to it.
* `decodeLatin1`: `bytes.decode("latin-1")`; `encodeLatin1` is its inverse.
* `strip`, `cut`, `rcut`, `lowerAscii`: methods of strings.
-/

/-- A Python string: its code points. -/
abbrev PyStr := List ℕ

/-- Membership tests on strings decide equality through this instance. -/
instance instLawfulBEqPyStr : LawfulBEq PyStr := inferInstance

/-- The same for an optional number. -/
instance instLawfulBEqOptionNat : LawfulBEq (Option ℕ) := inferInstance

/-- A literal. -/
def py (s : String) : PyStr := s.toList.map Char.toNat

namespace PyStr

/-- What a piece of a split list consists of. -/
lemma mem_of_mem_splitOn {α : Type} [BEq α] [LawfulBEq α] {a c : α} {l s : List α}
    (hl : l ∈ s.splitOn a) (hc : c ∈ l) : c ∈ s ∧ c ≠ a := by
  induction s generalizing l with
  | nil =>
      obtain rfl : l = [] := by simpa using hl
      exact absurd hc List.not_mem_nil
  | cons d s ih =>
      have hcons : ∀ {l : List α}, l ∈ s.splitOn a → c ∈ l → c ∈ d :: s ∧ c ≠ a := fun hl hc =>
        ⟨List.mem_cons_of_mem _ (ih hl hc).1, (ih hl hc).2⟩
      rw [List.splitOn_cons_eq_if_modifyHead] at hl
      split_ifs at hl with hd
      · rcases List.mem_cons.mp hl with rfl | hl
        · exact absurd hc List.not_mem_nil
        · exact hcons hl hc
      · obtain ⟨first, rest, hsplit⟩ := List.exists_cons_of_ne_nil (List.splitOn_ne_nil a s)
        rw [hsplit, List.modifyHead_cons] at hl
        rw [hsplit] at hcons
        rcases List.mem_cons.mp hl with rfl | hl
        · rcases List.mem_cons.mp hc with rfl | hc
          · exact ⟨List.mem_cons_self, fun heq => hd (beq_iff_eq.mpr heq)⟩
          · exact hcons List.mem_cons_self hc
        · exact hcons (List.mem_cons_of_mem _ hl) hc

/-- What lists put together with a separator between them consist of. -/
lemma mem_of_mem_intercalate {α : Type} {a c : α} {ls : List (List α)}
    (hc : c ∈ List.intercalate [a] ls) : c = a ∨ ∃ l ∈ ls, c ∈ l := by
  induction ls with
  | nil => exact absurd hc List.not_mem_nil
  | cons l ls ih =>
      cases ls with
      | nil => exact .inr ⟨l, List.mem_singleton_self l, by simpa using hc⟩
      | cons l' ls =>
          rw [List.intercalate_cons_cons, List.append_assoc, List.mem_append,
            List.singleton_append, List.mem_cons] at hc
          rcases hc with hc | rfl | hc
          · exact .inr ⟨l, List.mem_cons_self, hc⟩
          · exact .inl rfl
          · rcases ih hc with rfl | ⟨l'', hl'', hc⟩
            · exact .inl rfl
            · exact .inr ⟨l'', List.mem_cons_of_mem _ hl'', hc⟩

/-- A function that is defined on every element. -/
lemma mapM_eq_some {α β : Type} {f : α → Option β} {g : α → β} {l : List α}
    (h : ∀ a ∈ l, f a = some (g a)) : l.mapM f = some (l.map g) := by
  induction l with
  | nil => rfl
  | cons a l ih =>
      rw [List.forall_mem_cons] at h
      rw [List.mapM_cons, h.1, ih h.2]
      rfl

/-! ### Line breaks -/

/-- Line feed and carriage return. -/
def isEol (c : ℕ) : Bool := c = 0x0a ∨ c = 0x0d

/-- The characters at which `str.splitlines` breaks, besides the pair CR LF. -/
def isLineBreak (c : ℕ) : Bool :=
  isEol c ∨ c = 0x0b ∨ c = 0x0c ∨ c = 0x1c ∨ c = 0x1d ∨ c = 0x1e ∨ c = 0x85 ∨ c = 0x2028 ∨
    c = 0x2029

/-- The lines of a text that a break ends, and the unfinished line after the
last break; `line` is the current line read so far. The characters of `brk` are
breaks, and CR LF is one break. -/
def breakLines (brk : ℕ → Bool) (line : PyStr) : PyStr → List PyStr × PyStr
  | [] => ([], line)
  | 0x0d :: 0x0a :: s => (line :: (breakLines brk [] s).1, (breakLines brk [] s).2)
  | c :: s =>
      if brk c then (line :: (breakLines brk [] s).1, (breakLines brk [] s).2)
      else breakLines brk (line ++ [c]) s

/-- The lines of a text, an unfinished last one included. -/
def linesOf (brk : ℕ → Bool) (s : PyStr) : List PyStr :=
  let (lines, rest) := breakLines brk [] s
  if rest = [] then lines else lines ++ [rest]

/-- `str.splitlines()`. -/
def splitlines : PyStr → List PyStr := linesOf isLineBreak

example : splitlines (py "a\r\nb\rc\n\nd") = [py "a", py "b", py "c", [], py "d"] := by decide

/-- CR LF and CR become LF. -/
def normalizeEol : PyStr → PyStr
  | [] => []
  | 0x0d :: 0x0a :: s => 0x0a :: normalizeEol s
  | c :: s => (if c = 0x0d then 0x0a else c) :: normalizeEol s

/-- Drop a final LF. -/
def dropFinalLf (s : PyStr) : PyStr := if s.getLast? = some 0x0a then s.dropLast else s

section BreakLines

variable {brk : ℕ → Bool}

lemma breakLines_cons {c : ℕ} {s : PyStr} (line : PyStr)
    (h : ∀ t, c = 0x0d → s = 0x0a :: t → False) :
    breakLines brk line (c :: s) =
      if brk c then (line :: (breakLines brk [] s).1, (breakLines brk [] s).2)
      else breakLines brk (line ++ [c]) s := by
  rw [breakLines.eq_3]
  exact h

lemma breakLines_cons_of_not {c : ℕ} (line s : PyStr) (hcr : brk 0x0d) (hc : ¬ brk c) :
    breakLines brk line (c :: s) = breakLines brk (line ++ [c]) s := by
  rw [breakLines_cons line, if_neg hc]
  rintro t rfl -
  exact hc hcr

/-- A text without breaks continues the current line. -/
lemma breakLines_append_of_not (hcr : brk 0x0d) {l : PyStr} (hl : ∀ c ∈ l, ¬ brk c)
    (line s : PyStr) : breakLines brk line (l ++ s) = breakLines brk (line ++ l) s := by
  induction l generalizing line with
  | nil => simp
  | cons c l ih =>
      rw [List.forall_mem_cons] at hl
      rw [List.cons_append, breakLines_cons_of_not _ _ hcr hl.1, ih hl.2]
      simp

lemma breakLines_lf (hlf : brk 0x0a) (line s : PyStr) :
    breakLines brk line (0x0a :: s)
      = (line :: (breakLines brk [] s).1, (breakLines brk [] s).2) := by
  rw [breakLines_cons line, if_pos hlf]
  rintro t h -
  simp at h

/-- Breaking a text up to an LF, and what follows it, apart. -/
theorem breakLines_append_lf (hlf : brk 0x0a) (hcr : brk 0x0d) (line s t : PyStr) :
    breakLines brk line (s ++ 0x0a :: t)
      = ((breakLines brk line (s ++ [0x0a])).1 ++ (breakLines brk [] t).1,
          (breakLines brk [] t).2) := by
  induction line, s using breakLines.induct brk with
  | case1 line => simp [breakLines_lf hlf, breakLines]
  | case2 line s ih => simp only [List.cons_append, breakLines, ih]
  -- a break: the LF may be the second half of a CR LF
  | case3 line c s hne hc ih =>
      cases s with
      | nil =>
          by_cases h : c = 0x0d
          · subst h
            simp [breakLines]
          · have hcons : ∀ u, breakLines brk line (c :: u)
                = (line :: (breakLines brk [] u).1, (breakLines brk [] u).2) := by
              intro u
              rw [breakLines_cons line (fun _ he => absurd he h), if_pos hc]
            simp [hcons, breakLines_lf hlf, breakLines]
      | cons d s =>
          have hcons : ∀ u, breakLines brk line (c :: d :: u)
              = (line :: (breakLines brk [] (d :: u)).1, (breakLines brk [] (d :: u)).2) := by
            intro u
            rw [breakLines_cons line, if_pos hc]
            rintro v h hv
            obtain rfl : d = 0x0a := by simpa using congrArg List.head? hv
            exact hne s h rfl
          simp only [List.cons_append, hcons]
          simp only [List.cons_append] at ih
          rw [ih]
  | case4 line c s hne hc ih =>
      simp only [List.cons_append, breakLines_cons_of_not _ _ hcr hc, ih]

/-- What stands before the text continues its first line. -/
lemma breakLines_append_left (p line s : PyStr) :
    (breakLines brk (p ++ line) s).1 = (breakLines brk line s).1.modifyHead (p ++ ·) := by
  induction line, s using breakLines.induct brk with
  | case1 line => rfl
  | case2 line s ih => simp [breakLines]
  | case3 line c s hne hc ih => simp [breakLines_cons _ (fun t h h' => hne t h h'), hc]
  | case4 line c s hne hc ih =>
      simp only [breakLines_cons _ (fun t h h' => hne t h h'), if_neg hc]
      rw [← ih, List.append_assoc]

/-- The finished lines of the beginning of a text are the first lines of the text. -/
theorem prefix_breakLines (line s t : PyStr) :
    (breakLines brk line s).1 <+: (breakLines brk line (s ++ t)).1 := by
  induction line, s using breakLines.induct brk with
  | case1 line => exact List.nil_prefix
  | case2 line s ih =>
      simp only [List.cons_append, breakLines]
      exact List.cons_prefix_cons.mpr ⟨rfl, ih⟩
  | case3 line c s hne hc ih =>
      rw [breakLines_cons line fun t h h' => hne t h h', if_pos hc, List.cons_append]
      by_cases h : ∃ u, c = 0x0d ∧ s ++ t = 0x0a :: u
      · -- the text stops between CR and LF
        obtain ⟨u, rfl, hu⟩ := h
        cases s with
        | nil =>
            rw [List.nil_append] at hu
            simp [hu, breakLines]
        | cons d s =>
            obtain ⟨rfl, -⟩ := List.cons_eq_cons.mp hu
            exact absurd rfl (hne s rfl)
      · rw [breakLines_cons line fun u hcr hu => h ⟨u, hcr, hu⟩, if_pos hc]
        exact List.cons_prefix_cons.mpr ⟨rfl, ih⟩
  | case4 line c s hne hc ih =>
      rw [breakLines_cons line fun t h h' => hne t h h', if_neg hc, List.cons_append]
      by_cases h : ∃ u, c = 0x0d ∧ s ++ t = 0x0a :: u
      · obtain ⟨u, rfl, hu⟩ := h
        cases s with
        | nil => simp [breakLines]
        | cons d s =>
            obtain ⟨rfl, -⟩ := List.cons_eq_cons.mp hu
            exact absurd rfl (hne s rfl)
      · rw [breakLines_cons line fun u hcr hu => h ⟨u, hcr, hu⟩, if_neg hc]
        exact ih

/-- A text up to an LF ends with a finished line. -/
lemma breakLines_snoc_lf_ne_nil (hlf : brk 0x0a) (hcr : brk 0x0d) (line s : PyStr) :
    (breakLines brk line (s ++ [0x0a])).1 ≠ [] := by
  induction s generalizing line with
  | nil => simp [breakLines_lf hlf]
  | cons c s ih =>
      by_cases hc : brk c
      · by_cases h : ∃ t, c = 0x0d ∧ s ++ [0x0a] = 0x0a :: t
        · obtain ⟨t, rfl, ht⟩ := h
          simp [ht, breakLines]
        · rw [List.cons_append, breakLines_cons line fun t h1 h2 => h ⟨t, h1, h2⟩]
          simp [hc]
      · rw [List.cons_append, breakLines_cons_of_not _ _ hcr hc]
        exact ih _

/-- No line has a break in it. -/
lemma not_brk_of_mem_breakLines {line s : PyStr} (hline : ∀ c ∈ line, ¬ brk c) :
    (∀ l ∈ (breakLines brk line s).1, ∀ c ∈ l, ¬ brk c) ∧
      ∀ c ∈ (breakLines brk line s).2, ¬ brk c := by
  induction line, s using breakLines.induct brk with
  | case1 line => exact ⟨by simp [breakLines], hline⟩
  | case2 line s ih =>
      have := ih (by simp)
      rw [breakLines]
      exact ⟨List.forall_mem_cons.mpr ⟨hline, this.1⟩, this.2⟩
  | case3 line c s hne hc ih =>
      have := ih (by simp)
      rw [breakLines_cons _ (fun t h h' => hne t h h'), if_pos hc]
      exact ⟨List.forall_mem_cons.mpr ⟨hline, this.1⟩, this.2⟩
  | case4 line c s hne hc ih =>
      have := ih fun d hd => by
        rcases List.mem_append.mp hd with hd | hd
        · exact hline d hd
        · obtain rfl : d = c := by simpa using hd
          exact hc
      rw [breakLines_cons _ (fun t h h' => hne t h h'), if_neg hc]
      exact this

/-- The lines of a text have no characters but its own. -/
lemma mem_of_mem_breakLines (line s : PyStr) :
    (∀ l ∈ (breakLines brk line s).1, ∀ c ∈ l, c ∈ line ++ s) ∧
      ∀ c ∈ (breakLines brk line s).2, c ∈ line ++ s := by
  induction line, s using breakLines.induct brk with
  | case1 line => simp [breakLines]
  | case2 line s ih =>
      rw [breakLines]
      simp only [List.nil_append, List.mem_cons, forall_eq_or_imp, List.mem_append] at ih ⊢
      exact ⟨⟨fun c hc => Or.inl hc, fun l hl c hc => Or.inr (Or.inr (Or.inr (ih.1 l hl c hc)))⟩,
        fun c hc => Or.inr (Or.inr (Or.inr (ih.2 c hc)))⟩
  | case3 line c s hne hc ih =>
      rw [breakLines_cons _ (fun t h h' => hne t h h'), if_pos hc]
      simp only [List.nil_append, List.mem_cons, forall_eq_or_imp, List.mem_append] at ih ⊢
      exact ⟨⟨fun d hd => Or.inl hd, fun l hl d hd => Or.inr (Or.inr (ih.1 l hl d hd))⟩,
        fun d hd => Or.inr (Or.inr (ih.2 d hd))⟩
  | case4 line c s hne hc ih =>
      rw [breakLines_cons _ (fun t h h' => hne t h h'), if_neg hc]
      simpa using ih

end BreakLines

/-- The lines of a text make up the text again, its line ends normalized. -/
theorem flatMap_breakLines (line s : PyStr) :
    (breakLines isEol line s).1.flatMap (· ++ [0x0a]) ++ (breakLines isEol line s).2
      = line ++ normalizeEol s := by
  induction line, s using breakLines.induct isEol with
  | case1 line => simp [breakLines, normalizeEol]
  | case2 line s ih => simpa [breakLines, normalizeEol] using ih
  | case3 line c s hne hc ih =>
      have hlf : (if c = 0x0d then 0x0a else c) = 0x0a := by
        have : c = 0x0a ∨ c = 0x0d := by simpa [isEol] using hc
        split_ifs <;> omega
      rw [breakLines_cons _ (fun t h h' => hne t h h'), if_pos hc, normalizeEol.eq_3 c s hne, hlf]
      simpa using ih
  | case4 line c s hne hc ih =>
      have hself : (if c = 0x0d then 0x0a else c) = c := by
        have : ¬ (c = 0x0a ∨ c = 0x0d) := by simpa [isEol] using hc
        rw [if_neg (by omega)]
      rw [breakLines_cons _ (fun t h h' => hne t h h'), if_neg hc, normalizeEol.eq_3 c s hne,
        hself, ih]
      simp

section LinesOf

variable {brk : ℕ → Bool}

/-- A line of a text is finished or the unfinished one. -/
lemma mem_linesOf {s l : PyStr} (hl : l ∈ linesOf brk s) :
    l ∈ (breakLines brk [] s).1 ∨ l = (breakLines brk [] s).2 := by
  rw [linesOf] at hl
  dsimp only at hl
  split_ifs at hl
  · exact Or.inl hl
  · simpa using hl

lemma mem_of_mem_linesOf {s l : PyStr} (hl : l ∈ linesOf brk s) : ∀ c ∈ l, c ∈ s := by
  have hall := @mem_of_mem_breakLines brk [] s
  rcases mem_linesOf hl with hl | rfl
  · exact hall.1 l hl
  · exact hall.2

lemma not_brk_of_mem_linesOf {s l : PyStr} (hl : l ∈ linesOf brk s) : ∀ c ∈ l, ¬ brk c := by
  have hall := @not_brk_of_mem_breakLines brk [] s (by simp)
  rcases mem_linesOf hl with hl | rfl
  · exact hall.1 l hl
  · exact hall.2

/-- Breaking a text depends on its own characters only. -/
lemma breakLines_congr {brk' : ℕ → Bool} (line s : PyStr) (h : ∀ c ∈ s, brk c = brk' c) :
    breakLines brk line s = breakLines brk' line s := by
  induction line, s using breakLines.induct brk with
  | case1 line => rfl
  | case2 line s ih =>
      rw [breakLines, breakLines, ih fun c hc => h c (by simp [hc])]
  | case3 line c s hne hc ih =>
      have hc' : brk' c := (h c (by simp)) ▸ hc
      rw [breakLines_cons _ (fun t h h' => hne t h h'), if_pos hc,
        breakLines_cons _ (fun t h h' => hne t h h'), if_pos hc', ih fun d hd => h d (by simp [hd])]
  | case4 line c s hne hc ih =>
      have hc' : ¬ brk' c := (h c (by simp)) ▸ hc
      rw [breakLines_cons _ (fun t h h' => hne t h h'), if_neg hc,
        breakLines_cons _ (fun t h h' => hne t h h'), if_neg hc', ih fun d hd => h d (by simp [hd])]

/-- The number of lines, an unfinished last one included. -/
def lineCount (p : List PyStr × PyStr) : ℕ := p.1.length + if p.2 = [] then 0 else 1

lemma length_linesOf (s : PyStr) : (linesOf brk s).length = lineCount (breakLines brk [] s) := by
  rw [linesOf, lineCount]
  dsimp only
  split_ifs <;> simp

/-- More break characters make at least as many lines; a line that they have
just broken counts once more. -/
lemma lineCount_breakLines_le {few many : ℕ → Bool} (hle : ∀ c, few c → many c)
    (line line' s : PyStr) :
    lineCount (breakLines few line' s)
      ≤ lineCount (breakLines many line s) + if line = [] ∧ line' ≠ [] then 1 else 0 := by
  induction line, s using breakLines.induct many generalizing line' with
  | case1 line =>
      by_cases h : line = [] <;> by_cases h' : line' = [] <;> simp [breakLines, lineCount, h, h']
  | case2 line s ih =>
      have := ih []
      simp only [breakLines, lineCount, List.length_cons] at this ⊢
      simp only [ne_eq, not_true_eq_false, and_false, if_false] at this
      omega
  | case3 line c s hne hc ih =>
      rw [breakLines_cons _ (fun t h h' => hne t h h'),
        breakLines_cons _ (fun t h h' => hne t h h'), if_pos hc]
      by_cases hf : few c
      · have := ih []
        rw [if_pos hf]
        simp only [lineCount, List.length_cons] at this ⊢
        simp only [ne_eq, not_true_eq_false, and_false, if_false] at this
        omega
      · have := ih (line' ++ [c])
        rw [if_neg hf]
        simp only [lineCount, List.length_cons] at this ⊢
        simp only [ne_eq, List.append_eq_nil_iff, List.cons_ne_nil, and_false, not_false_eq_true,
          and_true, if_true] at this
        omega
  | case4 line c s hne hc ih =>
      have hf : ¬ few c := fun h => hc (hle c h)
      have := ih (line' ++ [c])
      rw [breakLines_cons _ (fun t h h' => hne t h h'),
        breakLines_cons _ (fun t h h' => hne t h h'), if_neg hc, if_neg hf]
      simp only [List.append_eq_nil_iff, List.cons_ne_nil, and_false, false_and, if_false] at this
      omega

lemma length_linesOf_le {few many : ℕ → Bool} (hle : ∀ c, few c → many c) (s : PyStr) :
    (linesOf few s).length ≤ (linesOf many s).length := by
  have := lineCount_breakLines_le hle [] [] s
  rw [length_linesOf, length_linesOf]
  simpa using this

end LinesOf

lemma mem_normalizeEol {s : PyStr} {c : ℕ} (hc : c ∈ s) (he : ¬ isEol c) :
    c ∈ normalizeEol s := by
  induction s using normalizeEol.induct with
  | case1 => simp at hc
  | case2 s ih =>
      have hc : c = 0x0d ∨ c = 0x0a ∨ c ∈ s := by simpa using hc
      rcases hc with rfl | rfl | hc
      · exact absurd (by decide) he
      · exact absurd (by decide) he
      · exact List.mem_cons_of_mem _ (ih hc)
  | case3 d s hne ih =>
      rw [normalizeEol.eq_3 d s hne]
      rcases List.mem_cons.mp hc with rfl | hc
      · have hcr : ¬ c = 0x0d := by
          rintro rfl
          exact he (by decide)
        simp [hcr]
      · exact List.mem_cons_of_mem _ (ih hc)

lemma mem_dropFinalLf {s : PyStr} {c : ℕ} (hc : c ∈ s) (he : ¬ isEol c) : c ∈ dropFinalLf s := by
  rw [dropFinalLf]
  split_ifs with h
  · obtain ⟨t, rfl⟩ := List.getLast?_eq_some_iff.mp h
    have hlf : ¬ c = 0x0a := by
      rintro rfl
      exact he (by decide)
    simpa [hlf] using hc
  · exact hc

/-- **The lines at CR LF, CR and LF make up the normalized text**, its final line
end apart. -/
theorem flatMap_linesOf_isEol (s : PyStr) :
    (if linesOf isEol s = [] then [[]] else linesOf isEol s).flatMap (· ++ [0x0a])
      = dropFinalLf (normalizeEol s) ++ [0x0a] := by
  have hall := flatMap_breakLines [] s
  have hrest := (@not_brk_of_mem_breakLines isEol [] s (by simp)).2
  rw [List.nil_append] at hall
  rw [linesOf, ← hall]
  generalize breakLines isEol [] s = p at hrest ⊢
  obtain ⟨ls, r⟩ := p
  rcases List.eq_nil_or_concat r with rfl | ⟨r', c, rfl⟩
  · rcases List.eq_nil_or_concat ls with rfl | ⟨ls', l, rfl⟩
    · rfl
    · simp [dropFinalLf]
  · have hc : c ≠ 0x0a := by
      rintro rfl
      exact hrest 0x0a (by simp) (by decide)
    simp [dropFinalLf, hc]

/-! ### Encodings -/

/-- The character of a code point that is a Unicode scalar value. -/
def toChar? (c : ℕ) : Option Char := if c.isValidChar then some (Char.ofNat c) else none

lemma toChar?_eq_some {c : ℕ} {x : Char} (h : toChar? c = some x) : x.toNat = c := by
  rw [toChar?] at h
  split_ifs at h with hv
  obtain rfl : Char.ofNat c = x := by simpa using h
  rw [Char.ofNat, dif_pos hv]
  rfl

/-- The Unicode scalar values of a string, if it has no surrogate. -/
def toChars? (s : PyStr) : Option (List Char) := s.mapM toChar?

/-- `str.encode("utf-8")`, `none` where Python raises `UnicodeEncodeError`. -/
def encodeUtf8 (s : PyStr) : Option ByteArray :=
  (toChars? s).map fun l => (String.ofList l).toByteArray

/-- `bytes.decode("utf-8")`, `none` where Python raises `UnicodeDecodeError`. -/
def decodeUtf8 (b : ByteArray) : Option PyStr :=
  (String.fromUTF8? b).map fun s => s.toList.map Char.toNat

lemma toChars?_cons (c : ℕ) (s : PyStr) :
    toChars? (c :: s) = (toChar? c).bind fun x => (toChars? s).map (x :: ·) := by
  rw [toChars?, toChars?, List.mapM_cons]
  cases toChar? c with
  | none => rfl
  | some x => cases s.mapM toChar? <;> rfl

lemma map_toNat_of_toChars? {s : PyStr} {l : List Char} (h : toChars? s = some l) :
    l.map Char.toNat = s := by
  induction s generalizing l with
  | nil =>
      obtain rfl : [] = l := by simpa [toChars?] using h
      rfl
  | cons c s ih =>
      rw [toChars?_cons, Option.bind_eq_some_iff] at h
      obtain ⟨x, hx, h⟩ := h
      obtain ⟨t, ht, rfl⟩ := Option.map_eq_some_iff.mp h
      rw [List.map_cons, toChar?_eq_some hx, ih ht]

lemma toChars?_append (s t : PyStr) :
    toChars? (s ++ t) = (toChars? s).bind fun l => (toChars? t).map (l ++ ·) := by
  induction s with
  | nil => cases h : toChars? t <;> simp [toChars?] at h ⊢ <;> simp [h]
  | cons c s ih =>
      rw [List.cons_append, toChars?_cons, toChars?_cons, ih]
      cases toChar? c with
      | none => rfl
      | some x => cases toChars? s <;> cases toChars? t <;> rfl

/-- A string can be encoded just when it has no surrogate. -/
lemma toChars?_isSome_iff (s : PyStr) :
    (toChars? s).isSome ↔ ∀ c ∈ s, c.isValidChar := by
  induction s with
  | nil => simp [toChars?]
  | cons c s ih =>
      rw [toChars?_cons, List.forall_mem_cons, ← ih, toChar?]
      by_cases h : c.isValidChar <;> simp [h]

lemma encodeUtf8_isSome_iff (s : PyStr) : (encodeUtf8 s).isSome ↔ ∀ c ∈ s, c.isValidChar := by
  rw [encodeUtf8, Option.isSome_map, toChars?_isSome_iff]

lemma isValidChar_of_mem_py {s : String} {c : ℕ} (h : c ∈ py s) : c.isValidChar := by
  obtain ⟨x, _, rfl⟩ := List.mem_map.mp h
  exact x.valid

/-- What was encoded decodes to what it was. -/
theorem decodeUtf8_encodeUtf8 {s : PyStr} {b : ByteArray} (h : encodeUtf8 s = some b) :
    decodeUtf8 b = some s := by
  obtain ⟨l, hl, rfl⟩ := Option.map_eq_some_iff.mp h
  have hv : (String.ofList l).toByteArray.IsValidUTF8 := (String.ofList l).isValidUTF8
  have hs : String.fromUTF8 (String.ofList l).toByteArray hv = String.ofList l := rfl
  rw [decodeUtf8, String.fromUTF8?, dif_pos hv, hs, Option.map_some, String.toList_ofList,
    map_toNat_of_toChars? hl]

/-- Encoding is compatible with concatenation. -/
theorem encodeUtf8_append {s t : PyStr} {a b : ByteArray} (hs : encodeUtf8 s = some a)
    (ht : encodeUtf8 t = some b) : encodeUtf8 (s ++ t) = some (a ++ b) := by
  obtain ⟨l, hl, rfl⟩ := Option.map_eq_some_iff.mp hs
  obtain ⟨m, hm, rfl⟩ := Option.map_eq_some_iff.mp ht
  rw [encodeUtf8, toChars?_append, hl, hm]
  simp

/-- What the beginning of a text decodes to. -/
theorem prefix_decodeUtf8 {a b : ByteArray} {s t : PyStr} (ha : decodeUtf8 a = some s)
    (hb : decodeUtf8 (a ++ b) = some t) : s <+: t := by
  obtain ⟨x, hx, rfl⟩ := Option.map_eq_some_iff.mp ha
  obtain ⟨y, hy, rfl⟩ := Option.map_eq_some_iff.mp hb
  have hbytes : ∀ {c : ByteArray} {z : String}, String.fromUTF8? c = some z →
      z.toList.utf8Encode = c := by
    intro c z h
    rw [String.fromUTF8?] at h
    split_ifs at h with hv
    obtain rfl := Option.some.inj h
    exact String.utf8Encode_toList
  refine List.IsPrefix.map _ (List.isPrefix_of_utf8Encode_append_eq_utf8Encode b ?_)
  rw [hbytes hx, hbytes hy]

/-- How many bytes an incremental decoder has decoded: the longest beginning that is UTF-8. -/
def decodedSize (b : ByteArray) : ℕ :=
  Nat.findGreatest (fun n => (decodeUtf8 (b.extract 0 n)).isSome) b.size

/-- What an incremental decoder has decoded of bytes: all characters up to one that is not
complete. -/
def decodeSoFar (b : ByteArray) : PyStr := (decodeUtf8 (b.extract 0 (decodedSize b))).getD []

example : decodeSoFar ⟨#[0x61, 0xc3, 0xa9, 0xe2, 0x80]⟩ = py "a\u00e9" := by decide +kernel

lemma decodeUtf8_decodedSize (b : ByteArray) :
    decodeUtf8 (b.extract 0 (decodedSize b)) = some (decodeSoFar b) := by
  have hempty : (decodeUtf8 (b.extract 0 0)).isSome := by
    rw [ByteArray.extract_same]
    decide
  have hsome : (decodeUtf8 (b.extract 0 (decodedSize b))).isSome :=
    Nat.findGreatest_spec (P := fun n => (decodeUtf8 (b.extract 0 n)).isSome) (Nat.zero_le _) hempty
  obtain ⟨s, hs⟩ := Option.isSome_iff_exists.mp hsome
  rw [decodeSoFar, hs, Option.getD_some]

/-- Of UTF-8 all is decoded. -/
lemma decodeSoFar_of_decodeUtf8 {b : ByteArray} {s : PyStr} (h : decodeUtf8 b = some s) :
    decodeSoFar b = s := by
  have hsize : decodedSize b = b.size :=
    Nat.findGreatest_eq (by rw [ByteArray.extract_zero_size, h, Option.isSome_some])
  have hall := decodeUtf8_decodedSize b
  rw [hsize, ByteArray.extract_zero_size] at hall
  exact Option.some.inj (hall.symm.trans h)

/-- **Bytes that follow** only add to what is decoded. -/
theorem prefix_decodeSoFar (a b : ByteArray) : decodeSoFar a <+: decodeSoFar (a ++ b) := by
  have hle : decodedSize a ≤ a.size := Nat.findGreatest_le _
  have hfirst : (a ++ b).extract 0 (decodedSize a) = a.extract 0 (decodedSize a) := by
    rw [ByteArray.extract_append, Nat.zero_sub, Nat.sub_eq_zero_of_le hle, ByteArray.extract_same,
      ByteArray.append_empty]
  have ha := hfirst ▸ decodeUtf8_decodedSize a
  have hmore : decodedSize a ≤ decodedSize (a ++ b) := by
    refine Nat.le_findGreatest ?_ (by rw [ha, Option.isSome_some])
    rw [ByteArray.size_append]
    omega
  have hb := decodeUtf8_decodedSize (a ++ b)
  rw [ByteArray.extract_eq_extract_append_extract (decodedSize a) (Nat.zero_le _) hmore] at hb
  exact prefix_decodeUtf8 ha hb

/-- `b"".join(chunks)`. -/
def joinBytes (chunks : List ByteArray) : ByteArray := chunks.foldr (· ++ ·) .empty

/-- Encoding a text piece by piece. -/
theorem encodeUtf8_flatten {texts : List PyStr} {chunks : List ByteArray}
    (h : List.Forall₂ (fun s b => encodeUtf8 s = some b) texts chunks) :
    encodeUtf8 texts.flatten = some (joinBytes chunks) := by
  induction h with
  | nil => rfl
  | cons hs _ ih => exact encodeUtf8_append hs ih

/-- `bytes.decode("latin-1")`: each byte is a code point. -/
def decodeLatin1 (b : List UInt8) : PyStr := b.map UInt8.toNat

lemma lt_of_mem_decodeLatin1 {b : List UInt8} {c : ℕ} (h : c ∈ decodeLatin1 b) : c < 256 := by
  obtain ⟨x, _, rfl⟩ := List.mem_map.mp h
  exact x.toNat_lt

/-- `str.encode("latin-1")`, which fails on a code point from 256 on. -/
def encodeLatin1 (s : PyStr) : Option (List UInt8) :=
  if ∀ c ∈ s, c < 256 then some (s.map UInt8.ofNat) else none

/-- `str.encode("ascii")`, which fails on a code point from 128 on. -/
def encodeAscii (s : PyStr) : Option (List UInt8) :=
  if ∀ c ∈ s, c < 128 then some (s.map UInt8.ofNat) else none

/-- **Latin-1 is a bijection** of bytes and the code points below 256. -/
theorem encodeLatin1_eq_some_iff {s : PyStr} {b : List UInt8} :
    encodeLatin1 s = some b ↔ decodeLatin1 b = s := by
  rw [encodeLatin1]
  constructor
  · intro h
    split_ifs at h with hs
    obtain rfl := Option.some.inj h
    rw [decodeLatin1, List.map_map]
    refine (List.map_congr_left fun c hc => ?_).trans (List.map_id s)
    show (UInt8.ofNat c).toNat = c
    rw [UInt8.toNat_ofNat']
    exact Nat.mod_eq_of_lt (hs c hc)
  · rintro rfl
    rw [if_pos fun c hc => lt_of_mem_decodeLatin1 hc, decodeLatin1, List.map_map]
    congr 1
    refine (List.map_congr_left fun x _ => ?_).trans (List.map_id b)
    exact UInt8.ofNat_toNat

lemma decodeLatin1_injective : Function.Injective decodeLatin1 := fun _ _ hab =>
  Option.some.inj <|
    (encodeLatin1_eq_some_iff.mpr rfl).symm.trans (encodeLatin1_eq_some_iff.mpr hab.symm)

lemma encodeLatin1_isSome_iff {s : PyStr} :
    (∃ b, encodeLatin1 s = some b) ↔ ∀ c ∈ s, c < 0x100 := by
  rw [encodeLatin1]
  split_ifs with hs
  · exact iff_of_true ⟨_, rfl⟩ hs
  · exact iff_of_false (by simp) hs

/-! ### Methods -/

/-- `str.isspace` on one character. -/
def isWhitespace (c : ℕ) : Bool :=
  (0x09 ≤ c ∧ c ≤ 0x0d) ∨ (0x1c ≤ c ∧ c ≤ 0x20) ∨ c = 0x85 ∨ c = 0xa0 ∨ c = 0x1680 ∨
    (0x2000 ≤ c ∧ c ≤ 0x200a) ∨ c = 0x2028 ∨ c = 0x2029 ∨ c = 0x202f ∨ c = 0x205f ∨ c = 0x3000

/-- `str.strip()`. -/
def strip (s : PyStr) : PyStr :=
  ((s.dropWhile isWhitespace).reverse.dropWhile isWhitespace).reverse

/-- `str.rstrip` of one character. -/
def rstripChar (c : ℕ) (s : PyStr) : PyStr := (s.reverse.dropWhile (· = c)).reverse

/-- `str.partition` at one character: what precedes its first occurrence, and what
follows it, if there is one. -/
def cut (c : ℕ) (s : PyStr) : PyStr × Option PyStr :=
  match s.dropWhile (· ≠ c) with
  | [] => (s, none)
  | _ :: rest => (s.takeWhile (· ≠ c), some rest)

lemma cut_append {c : ℕ} {a : PyStr} (ha : c ∉ a) (b : PyStr) :
    cut c (a ++ c :: b) = (a, some b) := by
  have hpass : ∀ x ∈ a, (x ≠ c : Bool) := fun x hx => by simpa using ne_of_mem_of_not_mem hx ha
  rw [cut, List.dropWhile_append_of_pos hpass, List.takeWhile_append_of_pos hpass]
  simp

lemma cut_of_notMem {c : ℕ} {s : PyStr} (hs : c ∉ s) : cut c s = (s, none) := by
  have hpass : ∀ x ∈ s, (x ≠ c : Bool) := fun x hx => by simpa using ne_of_mem_of_not_mem hx hs
  rw [cut, List.dropWhile_eq_nil_iff.mpr hpass]

lemma cut_fst (c : ℕ) (s : PyStr) : (cut c s).1 = s.takeWhile (· ≠ c) := by
  rw [cut]
  split
  · rename_i hdrop
    rw [List.takeWhile_eq_self_iff.mpr]
    exact fun d hd => List.dropWhile_eq_nil_iff.mp hdrop d hd
  · rfl

/-- What was cut, put together. -/
lemma eq_of_cut_eq_some {c : ℕ} {s a b : PyStr} (h : cut c s = (a, some b)) :
    s = a ++ c :: b ∧ c ∉ a := by
  rw [cut] at h
  split at h
  · simp at h
  · rename_i d rest hdrop
    obtain ⟨rfl, hrest⟩ := Prod.mk.inj h
    obtain rfl := Option.some.inj hrest
    have hhead := List.head?_dropWhile_not (fun x => decide (x ≠ c)) s
    rw [hdrop] at hhead
    have hd : d = c := by simpa using hhead
    refine ⟨?_, fun hmem => by simpa using List.mem_takeWhile_imp hmem⟩
    conv_lhs => rw [← @List.takeWhile_append_dropWhile _ (fun x => decide (x ≠ c)) s, hdrop, hd]

/-- `str.rpartition` at one character: what precedes its last occurrence, if there
is one, and what follows it. -/
def rcut (c : ℕ) (s : PyStr) : Option PyStr × PyStr :=
  match s.reverse.dropWhile (· ≠ c) with
  | [] => (none, s)
  | _ :: rest => (some rest.reverse, (s.reverse.takeWhile (· ≠ c)).reverse)

/-- `str.lower` on a character of ASCII. -/
def lowerAscii (c : ℕ) : ℕ := if 0x41 ≤ c ∧ c ≤ 0x5a then c + 0x20 else c

end PyStr
