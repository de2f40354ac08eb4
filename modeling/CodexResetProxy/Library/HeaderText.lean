import Mathlib.Data.List.DropRight
import CodexResetProxy.Library.PyStr

/-!
Headers as text, and a tolerant reader of such text.

* `headerText`: each header as `name: value` and CR LF.
* `readBack`: a reader that takes CR LF or a bare LF as the end of a line, and
  ignores blanks around a name.
* `readBack_headerText_iff`: it reads what was written just when the headers are
  `Plain`.
-/

namespace HeaderText

open PyStr

/-- A header: its name and its value. -/
abbrev Header := PyStr × PyStr

/-! ### Writing and reading -/

/-- The line of a header, without its line end. -/
def headerLine (h : Header) : PyStr := h.1 ++ 0x3a :: 0x20 :: h.2

/-- Headers as text. -/
def headerText (headers : List Header) : PyStr :=
  headers.flatMap fun h => headerLine h ++ [0x0d, 0x0a]

/-- Space and tab. -/
def isBlank (c : ℕ) : Bool := c = 0x20 ∨ c = 0x09

/-- A text without the blanks around it. -/
def stripBlanks (s : PyStr) : PyStr := (s.dropWhile isBlank).rdropWhile isBlank

/-- A text without a CR at its end. -/
def dropCr (s : PyStr) : PyStr := if s.getLast? = some 0x0d then s.dropLast else s

/-- A text without a space in front. -/
def dropSpace : PyStr → PyStr
  | 0x20 :: s => s
  | s => s

/-- The header of a line, which has a colon. -/
def readLine (line : PyStr) : Option Header :=
  match cut 0x3a line with
  | (name, some value) => some (stripBlanks name, dropSpace value)
  | (_, none) => none

/-- The lines of a text, without their line ends and without empty lines. -/
def textLines (text : PyStr) : List PyStr := ((text.splitOn 0x0a).map dropCr).filter (· ≠ [])

/-- The headers of a text, if each of its lines is one. -/
def readBack (text : PyStr) : Option (List Header) := (textLines text).mapM readLine

/-! ### Plain headers -/

/-- A header that a line can hold: no line end, no colon in the name, and no blanks
around it. -/
structure Plain (h : Header) : Prop where
  name_lf : 0x0a ∉ h.1
  name_colon : 0x3a ∉ h.1
  name_blank : stripBlanks h.1 = h.1
  value_lf : 0x0a ∉ h.2

variable {h : Header} {headers : List Header} {s t line : PyStr}

lemma plain_iff : Plain h ↔
    0x0a ∉ h.1 ∧ 0x3a ∉ h.1 ∧ stripBlanks h.1 = h.1 ∧ 0x0a ∉ h.2 :=
  ⟨fun ⟨h1, h2, h3, h4⟩ => ⟨h1, h2, h3, h4⟩, fun ⟨h1, h2, h3, h4⟩ => ⟨h1, h2, h3, h4⟩⟩

instance : DecidablePred Plain := fun _ => decidable_of_iff _ plain_iff.symm

/-- What is stripped has no blanks around it. -/
lemma stripBlanks_idem (s : PyStr) : stripBlanks (stripBlanks s) = stripBlanks s := by
  have hfront : (stripBlanks s).dropWhile isBlank = stripBlanks s := by
    obtain ⟨t, ht⟩ : stripBlanks s <+: s.dropWhile isBlank := List.rdropWhile_prefix _ _
    cases hstrip : stripBlanks s with
    | nil => rfl
    | cons c r =>
        have hhead := List.head?_dropWhile_not isBlank s
        rw [← ht, hstrip, List.cons_append, List.head?_cons] at hhead
        have hc : isBlank c = false := hhead
        rw [List.dropWhile_cons, hc]
        rfl
  rw [stripBlanks, hfront, stripBlanks, List.rdropWhile_idempotent]

lemma mem_of_mem_stripBlanks {c : ℕ} (hc : c ∈ stripBlanks s) : c ∈ s :=
  (List.dropWhile_sublist _).subset ((List.rdropWhile_prefix _ _).subset hc)

/-- Every line that is read is a plain header. -/
lemma plain_of_readLine (hline : 0x0a ∉ line) (h' : readLine line = some h) : Plain h := by
  rw [readLine] at h'
  split at h'
  · rename_i name value hcut
    obtain rfl := Option.some.inj h'
    obtain ⟨rfl, hcolon⟩ := eq_of_cut_eq_some hcut
    rw [List.mem_append, not_or] at hline
    refine ⟨fun hmem => hline.1 (mem_of_mem_stripBlanks hmem),
      fun hmem => hcolon (mem_of_mem_stripBlanks hmem), stripBlanks_idem name, fun hmem => ?_⟩
    refine hline.2 (List.mem_cons_of_mem _ ?_)
    rw [dropSpace.eq_def] at hmem
    split at hmem
    · exact List.mem_cons_of_mem _ hmem
    · exact hmem
  · cases h'

/-- A plain header is read from its line. -/
lemma readLine_headerLine (hh : Plain h) : readLine (headerLine h) = some h := by
  rw [readLine, headerLine, cut_append hh.name_colon]
  show some (stripBlanks h.1, h.2) = some h
  rw [hh.name_blank]

lemma textLines_headerText (hh : ∀ h ∈ headers, Plain h) :
    textLines (headerText headers) = headers.map headerLine := by
  induction headers with
  | nil => rfl
  | cons h headers ih =>
      rw [List.forall_mem_cons] at hh
      have hlf : 0x0a ∉ headerLine h ++ [0x0d] := by
        simp [headerLine, hh.1.name_lf, hh.1.value_lf]
      have hsplit : headerText (h :: headers)
          = (headerLine h ++ [0x0d]) ++ 0x0a :: headerText headers := by
        simp [headerText]
      have hline : headerLine h ≠ [] := by simp [headerLine]
      rw [textLines, hsplit, List.splitOn_append_cons_self_of_not_mem hlf, List.map_cons,
        List.filter_cons, dropCr, List.getLast?_concat, if_pos rfl, List.dropLast_concat,
        if_pos (by simpa using hline), List.map_cons, ← ih hh.2]
      rfl

lemma plain_of_mapM {lines : List PyStr} (hlines : ∀ l ∈ lines, 0x0a ∉ l)
    (hread : lines.mapM readLine = some headers) : ∀ h ∈ headers, Plain h := by
  induction lines generalizing headers with
  | nil =>
      obtain rfl : [] = headers := Option.some.inj hread
      simp
  | cons l lines ih =>
      rw [List.forall_mem_cons] at hlines
      rw [List.mapM_cons] at hread
      obtain ⟨h, hl, hread⟩ := Option.bind_eq_some_iff.mp hread
      obtain ⟨rest, hrest, hread⟩ := Option.bind_eq_some_iff.mp hread
      obtain rfl : h :: rest = headers := Option.some.inj hread
      exact List.forall_mem_cons.mpr ⟨plain_of_readLine hlines.1 hl, ih hlines.2 hrest⟩

lemma mapM_headerLine (hh : ∀ h ∈ headers, Plain h) :
    (headers.map headerLine).mapM readLine = some headers := by
  induction headers with
  | nil => rfl
  | cons h headers ih =>
      rw [List.forall_mem_cons] at hh
      rw [List.map_cons, List.mapM_cons, readLine_headerLine hh.1, ih hh.2]
      rfl

lemma notMem_of_mem_textLines (hl : line ∈ textLines s) : 0x0a ∉ line := by
  obtain ⟨hl, -⟩ := List.mem_filter.mp hl
  obtain ⟨piece, hpiece, rfl⟩ := List.mem_map.mp hl
  intro hmem
  rw [dropCr] at hmem
  split_ifs at hmem
  · exact (mem_of_mem_splitOn hpiece (List.dropLast_subset _ hmem)).2 rfl
  · exact (mem_of_mem_splitOn hpiece hmem).2 rfl

/-- **Reading headers back.** -/
theorem readBack_headerText_iff :
    readBack (headerText headers) = some headers ↔ ∀ h ∈ headers, Plain h := by
  constructor
  · intro hread
    exact plain_of_mapM (fun l hl => notMem_of_mem_textLines hl) hread
  · intro hh
    rw [readBack, textLines_headerText hh, mapM_headerLine hh]

end HeaderText
