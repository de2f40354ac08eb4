import Mathlib.Data.List.Find
import CodexResetProxy.Library.Json

/-!
Line ends in a JSON text do not matter.

A string literal of JSON holds no CR and no LF, so they stand between tokens
only, where the decoder skips them.

* `SameText s t`: `t` is `s` with some CR LF and CR replaced by LF, and possibly
  without a final LF. Characters that are not line ends correspond
  (`SameText.cons_left`, `SameText.cons_right`).
* `scanOnce_sameText`: a value scanned from one text is scanned from the other,
  and what is left is again the same.
* `loads_normalizeEol`: a text that decodes still decodes, and to the same
  value, after its line ends are normalized and a final one is dropped.
-/

open PyStr

namespace Json

/-- The same text up to its line ends. -/
inductive SameText : PyStr → PyStr → Prop
  | nil : SameText [] []
  | cons (c : ℕ) {s t : PyStr} (h : SameText s t) : SameText (c :: s) (c :: t)
  | crlf {s t : PyStr} (h : SameText s t) : SameText (0x0d :: 0x0a :: s) (0x0a :: t)
  | cr {s t : PyStr} (h : SameText s t) : SameText (0x0d :: s) (0x0a :: t)
  | final : SameText [0x0a] []

namespace SameText

variable {s t : PyStr} {c : ℕ}

lemma cons_left (h : SameText (c :: s) t) (hc : ¬ isEol c) :
    ∃ t', t = c :: t' ∧ SameText s t' := by
  cases h with
  | cons _ h => exact ⟨_, rfl, h⟩
  | crlf _ => exact absurd rfl hc
  | cr _ => exact absurd rfl hc
  | final => exact absurd rfl hc

lemma cons_right (h : SameText s (c :: t)) (hc : ¬ isEol c) :
    ∃ s', s = c :: s' ∧ SameText s' t := by
  cases h with
  | cons _ h => exact ⟨_, rfl, h⟩
  | crlf _ => exact absurd rfl hc
  | cr _ => exact absurd rfl hc

lemma eq_nil (h : SameText [] t) : t = [] := by
  cases h
  rfl

protected lemma refl (s : PyStr) : SameText s s := by
  induction s with
  | nil => exact .nil
  | cons c s ih => exact .cons c ih

protected lemma normalizeEol (s : PyStr) : SameText s (PyStr.normalizeEol s) := by
  induction s using PyStr.normalizeEol.induct with
  | case1 => exact .nil
  | case2 s ih => exact .crlf ih
  | case3 c s hne ih =>
      rw [PyStr.normalizeEol.eq_3 c s hne]
      split_ifs with hc
      · subst hc
        exact .cr ih
      · exact .cons c ih

lemma snoc_lf (s : PyStr) : SameText (s ++ [0x0a]) s := by
  induction s with
  | nil => exact .final
  | cons c s ih => exact .cons c ih

protected lemma dropFinalLf (s : PyStr) : SameText s (PyStr.dropFinalLf s) := by
  unfold PyStr.dropFinalLf
  split_ifs with h
  · obtain ⟨t, rfl⟩ := List.getLast?_eq_some_iff.mp h
    rw [List.dropLast_concat]
    exact .snoc_lf t
  · exact .refl s

/-! ### Lexical elements -/

lemma skipSpace (h : SameText s t) : SameText (skipSpace s) (skipSpace t) := by
  induction h with
  | nil => exact .nil
  | cons c h ih =>
      rw [Json.skipSpace, Json.skipSpace, List.dropWhile_cons, List.dropWhile_cons]
      split_ifs
      · exact ih
      · exact .cons c h
  | crlf _ ih => exact ih
  | cr _ ih => exact ih
  | final => exact .nil

lemma span_isDigit (h : SameText s t) :
    s.takeWhile isDigit = t.takeWhile isDigit ∧
      SameText (s.dropWhile isDigit) (t.dropWhile isDigit) := by
  induction h with
  | nil => exact ⟨rfl, .nil⟩
  | cons c h ih =>
      rw [List.takeWhile_cons, List.takeWhile_cons, List.dropWhile_cons, List.dropWhile_cons]
      split_ifs
      · exact ⟨congrArg (c :: ·) ih.1, ih.2⟩
      · exact ⟨rfl, .cons c h⟩
  | crlf h _ => exact ⟨rfl, .crlf h⟩
  | cr h _ => exact ⟨rfl, .cr h⟩
  | final => exact ⟨rfl, .final⟩

lemma not_isEol_of_hexDigit? {c n : ℕ} (h : hexDigit? c = some n) : ¬ isEol c := by
  intro hc
  have hor : c = 0x0a ∨ c = 0x0d := by simpa [isEol] using hc
  rcases hor with rfl | rfl <;> simp [hexDigit?] at h

lemma hex4? (h : SameText s t) {n : ℕ} {r : PyStr} (hs : hex4? s = some (n, r)) :
    ∃ r', hex4? t = some (n, r') ∧ SameText r r' := by
  unfold Json.hex4? at hs
  split at hs
  · split at hs
    · rename_i w x y z hw hx hy hz
      obtain ⟨rfl, rfl⟩ := by simpa using hs
      obtain ⟨t1, rfl, h1⟩ := h.cons_left (not_isEol_of_hexDigit? hw)
      obtain ⟨t2, rfl, h2⟩ := h1.cons_left (not_isEol_of_hexDigit? hx)
      obtain ⟨t3, rfl, h3⟩ := h2.cons_left (not_isEol_of_hexDigit? hy)
      obtain ⟨t4, rfl, h4⟩ := h3.cons_left (not_isEol_of_hexDigit? hz)
      exact ⟨t4, by simp [Json.hex4?, hw, hx, hy, hz], h4⟩
    · simp at hs
  · simp at hs

lemma afterBackslashU?_some (h : SameText s t) {r : PyStr} (hs : afterBackslashU? s = some r) :
    ∃ r', afterBackslashU? t = some r' ∧ SameText r r' := by
  unfold afterBackslashU? at hs
  split at hs
  · split_ifs at hs with hxy
    obtain rfl := Option.some.inj hs
    obtain ⟨rfl, rfl⟩ := hxy
    obtain ⟨t1, rfl, h1⟩ := h.cons_left (by decide)
    obtain ⟨t2, rfl, h2⟩ := h1.cons_left (by decide)
    exact ⟨t2, rfl, h2⟩
  · simp at hs

lemma afterBackslashU?_none (h : SameText s t) (hs : afterBackslashU? s = none) :
    afterBackslashU? t = none := by
  by_contra hne
  obtain ⟨r, hr⟩ := Option.ne_none_iff_exists'.mp hne
  unfold afterBackslashU? at hr
  split at hr
  · split_ifs at hr with hxy
    obtain ⟨rfl, rfl⟩ := hxy
    obtain ⟨s1, rfl, h1⟩ := h.cons_right (by decide)
    obtain ⟨s2, rfl, -⟩ := h1.cons_right (by decide)
    simp [afterBackslashU?] at hs
  · simp at hr

lemma ne_nil (h : SameText s t) (hs : ∃ c, s.head? = some c ∧ ¬ isEol c) : t ≠ [] := by
  obtain ⟨c, hhead, hc⟩ := hs
  obtain ⟨s, rfl⟩ := List.head?_eq_some_iff.mp hhead
  obtain ⟨t', rfl, -⟩ := h.cons_left hc
  exact List.cons_ne_nil c t'

lemma length_le (h : SameText s t) : t.length ≤ s.length := by
  induction h with
  | nil => exact le_rfl
  | cons c _ ih => simpa using ih
  | crlf _ ih => simp only [List.length_cons]; omega
  | cr _ ih => simpa using ih
  | final => exact Nat.zero_le _

/-- An escape that is not followed by the end of the line. -/
lemma scanUnicodeEscape (h : SameText s t) {x : ℕ} {r : PyStr}
    (hs : scanUnicodeEscape s = .ok (x, r)) (hr : ∃ c, r.head? = some c ∧ ¬ isEol c) :
    ∃ r', scanUnicodeEscape t = .ok (x, r') ∧ SameText r r' := by
  cases readsUnit_of_scan hs with
  | lone hhi _ hlone =>
      obtain ⟨r', hhi', h'⟩ := h.hex4? hhi
      refine ⟨r', (ReadsUnit.lone hhi' (h'.ne_nil hr) fun u' hge hle hlong hu' => ?_).scanned, h'⟩
      cases hu : afterBackslashU? r with
      | none => simp [h'.afterBackslashU?_none hu] at hu'
      | some u =>
          obtain ⟨u'', hu'', h''⟩ := h'.afterBackslashU?_some hu
          obtain rfl := Option.some.inj (hu''.symm.trans hu')
          obtain ⟨lo, v, hlo, hlow⟩ := hlone u hge hle (hlong.trans_le h'.length_le) hu
          obtain ⟨v', hlo', -⟩ := h''.hex4? hlo
          exact ⟨lo, v', hlo', hlow⟩
  | pair hhi hhigh hu hlo hlow _ =>
      obtain ⟨s', hhi', h'⟩ := h.hex4? hhi
      obtain ⟨u', hu', h''⟩ := h'.afterBackslashU?_some hu
      obtain ⟨r', hlo', hr'⟩ := h''.hex4? hlo
      exact ⟨r', (ReadsUnit.pair hhi' hhigh hu' hlo' hlow (hr'.ne_nil hr)).scanned, hr'⟩

lemma scanEscape (h : SameText s t) {x : ℕ} {r : PyStr} (hs : scanEscape s = .ok (x, r))
    (hr : ∃ c, r.head? = some c ∧ ¬ isEol c) :
    ∃ r', scanEscape t = .ok (x, r') ∧ SameText r r' := by
  cases s with
  | nil => simp [Json.scanEscape] at hs
  | cons c s =>
      have hc : ¬ isEol c := by
        intro hc
        have hor : c = 0x0a ∨ c = 0x0d := by simpa [isEol] using hc
        rcases hor with rfl | rfl <;> simp [Json.scanEscape, escape?] at hs
      obtain ⟨t', rfl, h'⟩ := h.cons_left hc
      rw [Json.scanEscape] at hs ⊢
      split_ifs at hs ⊢
      · exact h'.scanUnicodeEscape hs hr
      · split at hs
        · simp at hs
        · obtain ⟨rfl, rfl⟩ := by simpa using hs
          exact ⟨t', rfl, h'⟩

/-- A string does not go on with the end of a line. -/
lemma head?_of_scanStringFrom {n : ℕ} {x r : PyStr} (hs : Json.scanStringFrom n s = .ok (x, r)) :
    ∃ c, s.head? = some c ∧ ¬ isEol c := by
  cases n with
  | zero => simp [Json.scanStringFrom] at hs
  | succ n =>
      cases s with
      | nil => simp [Json.scanStringFrom] at hs
      | cons c s =>
          refine ⟨c, rfl, fun hc => ?_⟩
          have hor : c = 0x0a ∨ c = 0x0d := by simpa [isEol] using hc
          rcases hor with rfl | rfl <;> simp [Json.scanStringFrom] at hs

lemma scanStringFrom (h : SameText s t) {n : ℕ} {x r : PyStr}
    (hs : scanStringFrom n s = .ok (x, r)) :
    ∃ r', scanStringFrom n t = .ok (x, r') ∧ SameText r r' := by
  induction n generalizing s t x r with
  | zero => simp [Json.scanStringFrom] at hs
  | succ n ih =>
      cases s with
      | nil => simp [Json.scanStringFrom] at hs
      | cons c s =>
          obtain ⟨_, hhead, hc⟩ := head?_of_scanStringFrom hs
          obtain rfl := Option.some.inj hhead
          obtain ⟨u, rfl, hu⟩ := h.cons_left hc
          rw [Json.scanStringFrom] at hs ⊢
          split_ifs at hs ⊢
          · obtain ⟨rfl, rfl⟩ := by simpa using hs
            exact ⟨u, rfl, hu⟩
          · obtain ⟨⟨y, s'⟩, h1, hs⟩ := bind_eq_ok.mp hs
            obtain ⟨⟨ys, s''⟩, h2, hs⟩ := bind_eq_ok.mp hs
            obtain ⟨t', ht', h'⟩ := hu.scanEscape h1 (head?_of_scanStringFrom h2)
            obtain ⟨t'', ht'', h''⟩ := ih h' h2
            obtain ⟨rfl, rfl⟩ := by simpa using hs
            exact ⟨t'', by simp [ht', ht'', bind, Except.bind, pure, Except.pure], h''⟩
          · obtain ⟨⟨ys, s''⟩, h2, hs⟩ := bind_eq_ok.mp hs
            obtain ⟨t'', ht'', h''⟩ := ih hu h2
            obtain ⟨rfl, rfl⟩ := by simpa using hs
            exact ⟨t'', by simp [ht'', bind, Except.bind, pure, Except.pure], h''⟩

lemma scanString (h : SameText s t) {x r : PyStr} (hs : scanString s = .ok (x, r)) :
    ∃ r', scanString t = .ok (x, r') ∧ SameText r r' := by
  have hfuel : ∀ u : PyStr, u.length ≤ max s.length t.length →
      Json.scanString u = Json.scanStringFrom (max s.length t.length) u :=
    fun u hu => scanStringFrom_fuel (Nat.le_refl _) hu
  rw [hfuel s (by omega)] at hs
  rw [hfuel t (by omega)]
  exact h.scanStringFrom hs

/-- Two scans of an optional element agree: both fail, or both find the same
and leave the same text. -/
def Agree {α : Type} (x y : Option (α × PyStr)) : Prop :=
  (x = none ∧ y = none) ∨ ∃ a r r', x = some (a, r) ∧ y = some (a, r') ∧ SameText r r'

lemma agree_none {α : Type} : Agree (none : Option (α × PyStr)) none := Or.inl ⟨rfl, rfl⟩

lemma agree_some {α : Type} (a : α) (h : SameText s t) : Agree (some (a, s)) (some (a, t)) :=
  Or.inr ⟨a, s, t, rfl, rfl, h⟩

lemma Agree.cons {x y : Option (PyStr × PyStr)} (h : Agree x y) (c : ℕ) :
    Agree (x.map fun p => (c :: p.1, p.2)) (y.map fun p => (c :: p.1, p.2)) := by
  rcases h with ⟨rfl, rfl⟩ | ⟨a, r, r', rfl, rfl, hr⟩
  · exact agree_none
  · exact agree_some _ hr

lemma scanNat (h : SameText s t) : Agree (scanNat s) (scanNat t) := by
  cases h with
  | nil => exact agree_none
  | cons c h =>
      rw [Json.scanNat, Json.scanNat]
      split_ifs
      · exact agree_some _ h
      · rw [h.span_isDigit.1]
        exact agree_some _ h.span_isDigit.2
      · exact agree_none
  | crlf h => exact agree_none
  | cr h => exact agree_none
  | final => exact agree_none

lemma scanInt (h : SameText s t) : Agree (scanInt s) (scanInt t) := by
  cases h with
  | nil => exact agree_none
  | cons c h =>
      rw [Json.scanInt, Json.scanInt]
      split_ifs
      · exact h.scanNat.cons c
      · exact (h.cons c).scanNat
  | crlf h => exact agree_none
  | cr h => exact agree_none
  | final => exact agree_none

lemma scanDigits (h : SameText s t) : Agree (scanDigits s) (scanDigits t) := by
  unfold Json.scanDigits
  rw [h.span_isDigit.1]
  split_ifs
  · exact agree_none
  · exact agree_some _ h.span_isDigit.2

lemma scanSignedDigits (h : SameText s t) :
    Agree (scanSignedDigits s) (scanSignedDigits t) := by
  cases h with
  | nil => exact agree_none
  | cons c h =>
      rw [Json.scanSignedDigits, Json.scanSignedDigits]
      split_ifs
      · exact h.scanDigits.cons c
      · exact (h.cons c).scanDigits
  | crlf h => exact agree_none
  | cr h => exact agree_none
  | final => exact agree_none

lemma scanPart {mark : ℕ → Bool} {scan : PyStr → Option (PyStr × PyStr)}
    (hmark : ∀ c, mark c → ¬ isEol c)
    (hscan : ∀ s t, SameText s t → Agree (scan s) (scan t)) (h : SameText s t) :
    (scanPart mark scan s).1 = (scanPart mark scan t).1 ∧
      SameText (scanPart mark scan s).2 (scanPart mark scan t).2 := by
  have hcr : ¬ mark 0x0d := fun hm => hmark _ hm (by decide)
  have hlf : ¬ mark 0x0a := fun hm => hmark _ hm (by decide)
  cases h with
  | nil => exact ⟨rfl, .nil⟩
  | cons c h =>
      rw [Json.scanPart, Json.scanPart]
      split_ifs
      · rcases hscan _ _ h with ⟨h1, h2⟩ | ⟨a, r, r', h1, h2, hr⟩
        · rw [h1, h2]
          exact ⟨rfl, .cons c h⟩
        · rw [h1, h2]
          exact ⟨rfl, hr⟩
      · exact ⟨rfl, .cons c h⟩
  | crlf h =>
      rw [Json.scanPart, Json.scanPart, if_neg hcr, if_neg hlf]
      exact ⟨rfl, .crlf h⟩
  | cr h =>
      rw [Json.scanPart, Json.scanPart, if_neg hcr, if_neg hlf]
      exact ⟨rfl, .cr h⟩
  | final =>
      rw [Json.scanPart, Json.scanPart, if_neg hlf]
      exact ⟨rfl, .final⟩

lemma scanFrac (h : SameText s t) :
    (scanFrac s).1 = (scanFrac t).1 ∧ SameText (scanFrac s).2 (scanFrac t).2 :=
  scanPart (by simp [isEol]) (fun _ _ => scanDigits) h

lemma scanExp (h : SameText s t) :
    (scanExp s).1 = (scanExp t).1 ∧ SameText (scanExp s).2 (scanExp t).2 :=
  scanPart (by simp [isEol]) (fun _ _ => scanSignedDigits) h

lemma scanNumber (h : SameText s t) :
    (scanNumber s = none ∧ scanNumber t = none) ∨
      (scanNumber s = some (.error .digits) ∧ scanNumber t = some (.error .digits)) ∨
      ∃ v r r', scanNumber s = some (.ok (v, r)) ∧ scanNumber t = some (.ok (v, r')) ∧
        SameText r r' := by
  unfold Json.scanNumber
  rcases h.scanInt with ⟨h1, h2⟩ | ⟨i, r, r', h1, h2, hr⟩
  · rw [h1, h2]
    exact Or.inl ⟨rfl, rfl⟩
  · rw [h1, h2]
    obtain ⟨hf, hr⟩ := hr.scanFrac
    obtain ⟨he, hr⟩ := hr.scanExp
    dsimp only
    rw [hf, he]
    split_ifs
    · exact Or.inr (Or.inl ⟨rfl, rfl⟩)
    · exact Or.inr (Or.inr ⟨_, _, _, rfl, rfl, hr⟩)
    · exact Or.inr (Or.inr ⟨_, _, _, rfl, rfl, hr⟩)

lemma isPrefixOf {p : PyStr} (hp : ∀ c ∈ p, ¬ isEol c) (h : SameText s t) :
    (p <+: s ↔ p <+: t) ∧ (p <+: s → SameText (s.drop p.length) (t.drop p.length)) := by
  induction p generalizing s t with
  | nil => simpa using h
  | cons c p ih =>
      rw [List.forall_mem_cons] at hp
      refine ⟨⟨fun hs => ?_, fun ht => ?_⟩, fun hs => ?_⟩
      · obtain ⟨u, rfl⟩ := hs
        obtain ⟨t', rfl, h'⟩ := SameText.cons_left h hp.1
        exact List.cons_prefix_cons.mpr ⟨rfl, (ih hp.2 h').1.mp (List.prefix_append p u)⟩
      · obtain ⟨u, rfl⟩ := ht
        obtain ⟨s', rfl, h'⟩ := SameText.cons_right h hp.1
        exact List.cons_prefix_cons.mpr ⟨rfl, (ih hp.2 h').1.mpr (List.prefix_append p u)⟩
      · obtain ⟨u, rfl⟩ := hs
        obtain ⟨t', rfl, h'⟩ := SameText.cons_left h hp.1
        exact (ih hp.2 h').2 (List.prefix_append p u)

lemma scanLiteral (h : SameText s t) : Agree (scanLiteral s) (scanLiteral t) := by
  have heol : ∀ p ∈ literals, ∀ c ∈ p.1, ¬ isEol c := by
    have hall : ∀ l ∈ literals.map Prod.fst, ∀ c ∈ l, ¬ isEol c := by decide
    exact fun p hp => hall p.1 (List.mem_map_of_mem hp)
  have hfind : (literals.find? fun p => p.1.isPrefixOf s)
      = literals.find? fun p => p.1.isPrefixOf t := by
    refine List.find?_congr fun p hp => ?_
    rw [Bool.eq_iff_iff, List.isPrefixOf_iff_prefix, List.isPrefixOf_iff_prefix]
    exact (isPrefixOf (heol p hp) h).1
  unfold Json.scanLiteral
  cases hs : literals.find? fun p => p.1.isPrefixOf s with
  | none =>
      rw [← hfind, hs]
      exact agree_none
  | some p =>
      have hp : p.1 <+: s := by simpa using List.find?_some hs
      rw [← hfind, hs]
      exact agree_some _ ((isPrefixOf (heol p (List.mem_of_find?_eq_some hs)) h).2 hp)

end SameText

/-! ### Containers -/

/-- A scanner that finds the same value in the same text. -/
def Respects (scan : PyStr → Except JsonError (Json × PyStr)) : Prop :=
  ∀ s t v r, SameText s t → scan s = .ok (v, r) →
    ∃ r', scan t = .ok (v, r') ∧ SameText r r'

variable {scan : PyStr → Except JsonError (Json × PyStr)}

lemma scanElements_sameText (hscan : Respects scan) {n : ℕ} {s t r : PyStr} {vs : List Json}
    (h : SameText s t) (hs : scanElements scan n s = .ok (vs, r)) :
    ∃ r', scanElements scan n t = .ok (vs, r') ∧ SameText r r' := by
  induction n generalizing s t vs r with
  | zero => simp [scanElements] at hs
  | succ n ih =>
      rw [scanElements] at hs
      obtain ⟨⟨v, s1⟩, hv, hs⟩ := bind_eq_ok.mp hs
      obtain ⟨t1, ht1, h1⟩ := hscan _ _ _ _ h hv
      have h2 := h1.skipSpace
      dsimp only at hs
      split at hs
      · rename_i c s2 hs2
        rw [hs2] at h2
        split_ifs at hs with hclose hcomma
        · obtain ⟨rfl, rfl⟩ := by simpa using hs
          subst hclose
          obtain ⟨t2, ht2, h3⟩ := h2.cons_left (by decide)
          exact ⟨t2, by simp [scanElements, ht1, ht2, bind, Except.bind, pure, Except.pure], h3⟩
        · obtain ⟨⟨us, u⟩, hu, hs⟩ := bind_eq_ok.mp hs
          obtain ⟨rfl, rfl⟩ := by simpa using hs
          subst hcomma
          obtain ⟨t2, ht2, h3⟩ := h2.cons_left (by decide)
          obtain ⟨t3, ht3, h4⟩ := ih h3.skipSpace hu
          refine ⟨t3, ?_, h4⟩
          simp [scanElements, ht1, ht2, ht3, bind, Except.bind, pure, Except.pure]
      · simp at hs

lemma scanMembers_sameText (hscan : Respects scan) {n : ℕ} {s t r : PyStr}
    {ms : List (PyStr × Json)} (h : SameText s t) (hs : scanMembers scan n s = .ok (ms, r)) :
    ∃ r', scanMembers scan n t = .ok (ms, r') ∧ SameText r r' := by
  induction n generalizing s t ms r with
  | zero => simp [scanMembers] at hs
  | succ n ih =>
      cases s with
      | nil => simp [scanMembers] at hs
      | cons q s =>
          rw [scanMembers] at hs
          split_ifs at hs with hq
          subst hq
          obtain ⟨t0, rfl, h0⟩ := h.cons_left (by decide)
          obtain ⟨⟨name, s1⟩, hname, hs⟩ := bind_eq_ok.mp hs
          obtain ⟨t1, ht1, h1⟩ := h0.scanString hname
          have h1' := h1.skipSpace
          dsimp only at hs
          split at hs
          · rename_i c s2 hs2
            rw [hs2] at h1'
            split_ifs at hs with hcolon
            subst hcolon
            obtain ⟨t2, ht2, h2⟩ := h1'.cons_left (by decide)
            obtain ⟨⟨v, s3⟩, hv, hs⟩ := bind_eq_ok.mp hs
            obtain ⟨t3, ht3, h3⟩ := hscan _ _ _ _ h2.skipSpace hv
            have h3' := h3.skipSpace
            dsimp only at hs
            split at hs
            · rename_i c' s4 hs4
              rw [hs4] at h3'
              split_ifs at hs with hclose hcomma
              · obtain ⟨rfl, rfl⟩ := by simpa using hs
                subst hclose
                obtain ⟨t4, ht4, h4⟩ := h3'.cons_left (by decide)
                refine ⟨t4, ?_, h4⟩
                simp [scanMembers, ht1, ht2, ht3, ht4, bind, Except.bind, pure, Except.pure]
              · obtain ⟨⟨us, u⟩, hu, hs⟩ := bind_eq_ok.mp hs
                obtain ⟨rfl, rfl⟩ := by simpa using hs
                subst hcomma
                obtain ⟨t4, ht4, h4⟩ := h3'.cons_left (by decide)
                obtain ⟨t5, ht5, h5⟩ := ih h4.skipSpace hu
                refine ⟨t5, ?_, h5⟩
                simp [scanMembers, ht1, ht2, ht3, ht4, ht5, bind, Except.bind, pure, Except.pure]
            · simp at hs
          · simp at hs

lemma scanArray_sameText (hlen : Consumes scan) (hscan : Respects scan) {s t r : PyStr} {v : Json}
    (h : SameText s t) (hs : scanArray scan s = .ok (v, r)) :
    ∃ r', scanArray scan t = .ok (v, r') ∧ SameText r r' := by
  have h' := h.skipSpace
  unfold scanArray at hs ⊢
  split_ifs at hs with hempty
  · obtain ⟨rfl, rfl⟩ := by simpa using hs
    obtain ⟨u, hu⟩ := List.head?_eq_some_iff.mp hempty
    rw [hu] at h' ⊢
    obtain ⟨u', hu', h1⟩ := h'.cons_left (by decide)
    exact ⟨u', by simp [hu'], h1⟩
  · have hne : ¬ (skipSpace t).head? = some 0x5d := by
      intro ht
      obtain ⟨u, hu⟩ := List.head?_eq_some_iff.mp ht
      rw [hu] at h'
      obtain ⟨u', hu', -⟩ := h'.cons_right (by decide)
      exact hempty (by simp [hu'])
    rw [if_neg hne]
    obtain ⟨⟨vs, r'⟩, hvs, hs⟩ := bind_eq_ok.mp hs
    obtain ⟨rfl, rfl⟩ := by simpa using hs
    set n := max (skipSpace s).length (skipSpace t).length + 1 with hn
    rw [scanElements_fuel hlen (m := n) (by omega) (by omega)] at hvs
    rw [scanElements_fuel hlen (m := n) (by omega) (by omega)]
    obtain ⟨u, hu, h1⟩ := scanElements_sameText hscan h' hvs
    exact ⟨u, by simp [hu, bind, Except.bind, pure, Except.pure], h1⟩

lemma scanObject_sameText (hlen : Consumes scan) (hscan : Respects scan) {s t r : PyStr}
    {v : Json} (h : SameText s t) (hs : scanObject scan s = .ok (v, r)) :
    ∃ r', scanObject scan t = .ok (v, r') ∧ SameText r r' := by
  have h' := h.skipSpace
  unfold scanObject at hs ⊢
  split_ifs at hs with hempty
  · obtain ⟨rfl, rfl⟩ := by simpa using hs
    obtain ⟨u, hu⟩ := List.head?_eq_some_iff.mp hempty
    rw [hu] at h' ⊢
    obtain ⟨u', hu', h1⟩ := h'.cons_left (by decide)
    exact ⟨u', by simp [hu'], h1⟩
  · have hne : ¬ (skipSpace t).head? = some 0x7d := by
      intro ht
      obtain ⟨u, hu⟩ := List.head?_eq_some_iff.mp ht
      rw [hu] at h'
      obtain ⟨u', hu', -⟩ := h'.cons_right (by decide)
      exact hempty (by simp [hu'])
    rw [if_neg hne]
    obtain ⟨⟨ms, r'⟩, hms, hs⟩ := bind_eq_ok.mp hs
    obtain ⟨rfl, rfl⟩ := by simpa using hs
    set n := max (skipSpace s).length (skipSpace t).length + 1 with hn
    rw [scanMembers_fuel hlen (m := n) (by omega) (by omega)] at hms
    rw [scanMembers_fuel hlen (m := n) (by omega) (by omega)]
    obtain ⟨u, hu, h1⟩ := scanMembers_sameText hscan h' hms
    exact ⟨u, by simp [hu, bind, Except.bind, pure, Except.pure], h1⟩

/-- One call finds the same value in the same text if the calls for the values
inside do. -/
lemma scanOnce_respects_of {depth : ℕ} (ih : ∀ d, depth = d + 1 → Respects (scanOnce d)) :
    Respects (scanOnce depth) := by
  intro s t v r h hs
  cases s with
  | nil => cases depth <;> simp [scanOnce] at hs
  | cons c s =>
      -- no value begins with a line end
      have hc : ¬ isEol c := by
        intro hc
        have hor : c = 0x0a ∨ c = 0x0d := by simpa [isEol] using hc
        rcases hor with rfl | rfl
        all_goals
          rw [scanOnce_cons] at hs
          simp [scanLiteral, literals, scanNumber, scanInt, scanNat, isDigit, py] at hs
      obtain ⟨t', rfl, h'⟩ := h.cons_left hc
      rw [scanOnce_cons] at hs ⊢
      split_ifs at hs ⊢
      · obtain ⟨⟨x, r'⟩, hx, hs⟩ := bind_eq_ok.mp hs
        obtain ⟨rfl, rfl⟩ := by simpa using hs
        obtain ⟨u, hu, h1⟩ := h'.scanString hx
        exact ⟨u, by simp [hu, bind, Except.bind, pure, Except.pure], h1⟩
      · cases depth with
        | zero => simp at hs
        | succ d => exact scanObject_sameText (scanOnce_length d) (ih d rfl) h' hs
      · cases depth with
        | zero => simp at hs
        | succ d => exact scanArray_sameText (scanOnce_length d) (ih d rfl) h' hs
      -- literals and numbers have no line end in them
      · rcases h.scanLiteral with ⟨h1, h2⟩ | ⟨a, u, u', h1, h2, hu⟩
        · rw [h1] at hs
          rw [h2]
          rcases h.scanNumber with ⟨h3, h4⟩ | ⟨h3, h4⟩ | ⟨w, u, u', h3, h4, hu⟩
          · simp [h3] at hs
          · simp [h3] at hs
          · rw [h3] at hs
            rw [h4]
            obtain ⟨rfl, rfl⟩ := by simpa using hs
            exact ⟨u', rfl, hu⟩
        · rw [h1] at hs
          rw [h2]
          obtain ⟨rfl, rfl⟩ := by simpa using hs
          exact ⟨u', rfl, hu⟩

/-- The decoder finds the same value in the same text. -/
theorem scanOnce_sameText (depth : ℕ) : Respects (scanOnce depth) := by
  induction depth with
  | zero => exact scanOnce_respects_of fun d hd => absurd hd (by simp)
  | succ d ih =>
      refine scanOnce_respects_of fun e he => ?_
      obtain rfl : d = e := by omega
      exact ih

theorem loads_sameText {depth : ℕ} {s t : PyStr} {v : Json} (h : SameText s t)
    (hs : loads depth s = .ok v) : loads depth t = .ok v := by
  unfold loads at hs ⊢
  split_ifs at hs with hbom
  have hne : ¬ t.head? = some 0xfeff := by
    intro ht
    obtain ⟨u, rfl⟩ := List.head?_eq_some_iff.mp ht
    obtain ⟨u', rfl, -⟩ := h.cons_right (by decide)
    exact hbom rfl
  rw [if_neg hne]
  obtain ⟨⟨w, r⟩, hw, hs⟩ := bind_eq_ok.mp hs
  obtain ⟨r', hr', h1⟩ := scanOnce_sameText depth _ _ _ _ h.skipSpace hw
  dsimp only at hs
  split_ifs at hs with hend
  obtain rfl := by simpa using hs
  have hend' : skipSpace r' = [] := by
    have h2 := h1.skipSpace
    rw [hend] at h2
    exact h2.eq_nil
  simp [hr', hend', bind, Except.bind, pure, Except.pure]

/-- **Line ends do not matter**: a text that decodes still decodes, to the same
value, when its line ends are normalized and a final one is dropped. -/
theorem loads_normalizeEol {depth : ℕ} {s : PyStr} {v : Json} (hs : loads depth s = .ok v) :
    loads depth (dropFinalLf (normalizeEol s)) = .ok v :=
  loads_sameText (.dropFinalLf _) (loads_sameText (.normalizeEol s) hs)

end Json
