import CodexResetProxy.Library.Rfc8259

/-!
The scanner of Python's decoder reads the strings and numbers of the grammar.

* `scanString_sound`, `scanString_complete`: strings.
* `scanNumber_sound`, `scanNumber_complete`: numbers, in front of what ends one.
* `floatNumber`, `PyNumber`: the value of a float, and the numbers of the decoder, which has
  three more literals.
-/

namespace Json

open PyStr Rfc8259

/-! ### Strings -/

/-- Unicode scalar values. -/
def Valid (s : PyStr) : Prop := ∀ c ∈ s, c.isValidChar

/-- An escape that was scanned, in front of characters. -/
lemma isChars_of_scanEscape {s t r xs : PyStr} {x : ℕ}
    (h : scanEscape s = .ok (x, t ++ 0x22 :: r)) (ht : IsChars t xs) :
    ∃ u, 0x5c :: s = u ++ 0x22 :: r ∧ IsChars u (x :: xs) := by
  cases s with
  | nil => simp [scanEscape] at h
  | cons c s =>
      rw [scanEscape] at h
      split_ifs at h with hc
      · subst hc
        cases readsUnit_of_scan h with
        | lone hhi _ hlone =>
            obtain ⟨-, digits, rfl, hdigits⟩ := hex4?_split hhi
            refine ⟨0x5c :: 0x75 :: (digits ++ t), by simp, .unit (unicodeEscape?_cons (hdigits t))
              (fun lo t' hhigh hlo hlow => ?_) ht⟩
            -- a low surrogate behind it would have been taken with it
            have hmore := unicodeEscape?_append hlo (0x22 :: r)
            obtain ⟨t2, hu, hlo'⟩ := Option.bind_eq_some_iff.mp hmore
            have hlen := afterBackslashU?_length hu
            have hlen' := hex4?_length hlo'
            rw [List.length_append, List.length_cons] at hlen'
            obtain ⟨lo', t3, hlo'', hnot⟩ := hlone t2 hhigh.1 hhigh.2 (by omega) hu
            obtain ⟨rfl, -⟩ := Prod.mk.inj (Option.some.inj (hlo'.symm.trans hlo''))
            exact hnot hlow
        | pair hhi hhigh hu hlo hlow _ =>
            obtain ⟨-, digits, rfl, hdigits⟩ := hex4?_split hhi
            obtain ⟨-, digits', rfl, hdigits'⟩ := hex4?_split hlo
            obtain rfl := eq_of_afterBackslashU? hu
            exact ⟨0x5c :: 0x75 :: (digits ++ 0x5c :: 0x75 :: (digits' ++ t)), by simp,
              .pair (unicodeEscape?_cons (hdigits _)) hhigh (unicodeEscape?_cons (hdigits' t)) hlow
                ht⟩
      · split at h
        · simp at h
        rename_i y hy
        obtain ⟨rfl, rfl⟩ := Prod.mk.inj (Except.ok.inj h)
        exact ⟨0x5c :: c :: t, rfl, .escape hy ht⟩

/-- What follows an escape is the end of the text. -/
lemma scanEscape_suffix {s s' : PyStr} {x : ℕ} (h : scanEscape s = .ok (x, s')) : s' <:+ s := by
  cases s with
  | nil => simp [scanEscape] at h
  | cons c s =>
      refine List.IsSuffix.trans ?_ (List.suffix_cons c s)
      rw [scanEscape] at h
      split_ifs at h
      · cases readsUnit_of_scan h with
        | lone hhi _ _ =>
            obtain ⟨-, digits, rfl, -⟩ := hex4?_split hhi
            exact List.suffix_append digits s'
        | pair hhi _ hu hlo _ _ =>
            obtain ⟨-, digits, rfl, -⟩ := hex4?_split hhi
            obtain ⟨-, digits', rfl, -⟩ := hex4?_split hlo
            rw [eq_of_afterBackslashU? hu]
            exact ⟨digits ++ 0x5c :: 0x75 :: digits', by simp⟩
      · split at h
        · simp at h
        · obtain ⟨-, rfl⟩ := Prod.mk.inj (Except.ok.inj h)
          exact List.suffix_rfl

lemma scanStringFrom_sound {n : ℕ} {s x r : PyStr} (h : scanStringFrom n s = .ok (x, r))
    (hs : Valid s) : ∃ u, s = u ++ 0x22 :: r ∧ IsChars u x := by
  induction n generalizing s x r with
  | zero => simp [scanStringFrom] at h
  | succ n ih =>
      cases s with
      | nil => simp [scanStringFrom] at h
      | cons c s =>
          obtain ⟨hc, hs⟩ := List.forall_mem_cons.mp hs
          rw [scanStringFrom] at h
          split_ifs at h with hquote hescape hlow
          · obtain ⟨rfl, rfl⟩ := Prod.mk.inj (Except.ok.inj h)
            exact ⟨[], by rw [hquote]; rfl, .nil⟩
          · obtain ⟨⟨y, s'⟩, hy, h⟩ := bind_eq_ok.mp h
            obtain ⟨⟨ys, s''⟩, hys, h⟩ := bind_eq_ok.mp h
            obtain ⟨rfl, rfl⟩ : y :: ys = x ∧ s'' = r := by simpa using h
            obtain ⟨u, rfl, hu⟩ := ih hys fun d hd => hs d ((scanEscape_suffix hy).subset hd)
            obtain ⟨u', heq, hu'⟩ := isChars_of_scanEscape hy hu
            exact ⟨u', by rw [hescape, heq], hu'⟩
          · obtain ⟨⟨ys, s'⟩, hys, h⟩ := bind_eq_ok.mp h
            obtain ⟨rfl, rfl⟩ : c :: ys = x ∧ s' = r := by simpa using h
            obtain ⟨u, rfl, hu⟩ := ih hys hs
            exact ⟨c :: u, rfl, .unescaped hc (by omega) hquote hescape hu⟩

/-- **A string that is scanned** is one. -/
theorem scanString_sound {s x r : PyStr} (h : scanString s = .ok (x, r)) (hs : Valid s) :
    ∃ t, 0x22 :: s = t ++ r ∧ IsString t x := by
  obtain ⟨u, rfl, hu⟩ := scanStringFrom_sound h hs
  exact ⟨0x22 :: (u ++ [0x22]), by simp, u, rfl, hu⟩

lemma scanStringFrom_escape {n c : ℕ} {s s' x r : PyStr} (hescape : scanEscape s = .ok (c, s'))
    (hrest : scanStringFrom n s' = .ok (x, r)) :
    scanStringFrom (n + 1) (0x5c :: s) = .ok (c :: x, r) := by
  rw [scanStringFrom, if_neg (by decide), if_pos rfl]
  exact bind_eq_ok.mpr ⟨_, hescape, bind_eq_ok.mpr ⟨_, hrest, rfl⟩⟩

/-- A unit that no low surrogate follows stands for itself. -/
lemma scanEscape_unit {u : ℕ} {t₀ t s : PyStr} (hu : unicodeEscape? t₀ = some (u, t))
    (ht : IsChars t s) (hpair : ∀ lo t', IsHigh u → unicodeEscape? t = some (lo, t') → ¬IsLow lo)
    (r : PyStr) : ∃ w, t₀ = 0x5c :: w ∧
      scanEscape (w ++ 0x22 :: r) = .ok (u, t ++ 0x22 :: r) := by
  obtain ⟨-, digits, rfl, hdigits⟩ := unicodeEscape?_split hu
  refine ⟨_, rfl, ?_⟩
  rw [List.cons_append, List.append_assoc, scanEscape, if_pos rfl]
  refine (ReadsUnit.lone (hdigits _) (by simp) fun t2 hge hle _ hnext => ?_).scanned
  obtain ⟨lo, t', hlo⟩ := ht.exists_unicodeEscape hnext
  have hmore := unicodeEscape?_append hlo (0x22 :: r)
  rw [unicodeEscape?, hnext, Option.bind_eq_bind, Option.bind_some] at hmore
  exact ⟨lo, _, hmore, hpair lo t' ⟨hge, hle⟩ hlo⟩

/-- Two surrogates stand for one character. -/
lemma scanEscape_pair {hi lo : ℕ} {t₀ t t' : PyStr} (hhi : unicodeEscape? t₀ = some (hi, t))
    (hhigh : IsHigh hi) (hlo : unicodeEscape? t = some (lo, t')) (hlow : IsLow lo) (r : PyStr) :
    ∃ w, t₀ = 0x5c :: w ∧ scanEscape (w ++ 0x22 :: r) = .ok (joinPair hi lo, t' ++ 0x22 :: r) := by
  obtain ⟨-, digits, rfl, hdigits⟩ := unicodeEscape?_split hhi
  obtain ⟨-, digits', rfl, hdigits'⟩ := unicodeEscape?_split hlo
  refine ⟨_, rfl, ?_⟩
  rw [List.cons_append, List.append_assoc, scanEscape, if_pos rfl]
  refine (ReadsUnit.pair (hdigits _) hhigh rfl ?_ hlow (by simp)).scanned
  exact (congrArg hex4? (List.append_assoc digits' t' _)).trans (hdigits' _)

/-- Characters in front of a text that is read already. -/
lemma scanStringFrom_complete {u x : PyStr} (h : IsChars u x) (r : PyStr) :
    ∃ n, scanStringFrom n (u ++ 0x22 :: r) = .ok (x, r) := by
  induction h with
  | nil => exact ⟨1, rfl⟩
  | @unescaped c t s hvalid hlow hquote hescape ht ih =>
      obtain ⟨n, hn⟩ := ih
      refine ⟨n + 1, ?_⟩
      rw [List.cons_append, scanStringFrom, if_neg hquote, if_neg hescape, if_neg (by omega)]
      exact bind_eq_ok.mpr ⟨_, hn, rfl⟩
  | @escape e c t s he ht ih =>
      obtain ⟨n, hn⟩ := ih
      have hu : e ≠ 0x75 := by
        rintro rfl
        simp [escape?] at he
      have hstep : scanEscape (e :: (t ++ 0x22 :: r)) = .ok (c, t ++ 0x22 :: r) := by
        rw [scanEscape, if_neg hu, he]
      exact ⟨n + 1, scanStringFrom_escape hstep hn⟩
  | unit hu hpair ht ih =>
      obtain ⟨n, hn⟩ := ih
      obtain ⟨w, rfl, hstep⟩ := scanEscape_unit hu ht hpair r
      exact ⟨n + 1, scanStringFrom_escape hstep hn⟩
  | pair hhi hhigh hlo hlow ht ih =>
      obtain ⟨n, hn⟩ := ih
      obtain ⟨w, rfl, hstep⟩ := scanEscape_pair hhi hhigh hlo hlow r
      exact ⟨n + 1, scanStringFrom_escape hstep hn⟩

/-- **A string** is scanned in front of any text. -/
theorem scanString_complete {t x : PyStr} (h : IsString t x) (r : PyStr) :
    ∃ s, t ++ r = 0x22 :: s ∧ scanString s = .ok (x, r) := by
  obtain ⟨u, rfl, hu⟩ := h
  obtain ⟨n, hn⟩ := scanStringFrom_complete hu r
  exact ⟨u ++ 0x22 :: r, by simp, scanString_of_scanStringFrom hn⟩

/-! ### Numbers -/

/-- The literals of the decoder that RFC 8259 does not have. -/
def specials : List PyStr := [py "NaN", py "Infinity", py "-Infinity"]

/-- The numbers of the decoder. -/
inductive PyNumber : PyStr → Number → Prop
  | number {t : PyStr} {n : Number} (h : IsNumber t n) : PyNumber t n
  | special {t : PyStr} (h : t ∈ specials) : PyNumber t (.literal t)

/-- An integer of no more digits than `int` converts, or no integer. -/
def Short : Number → Prop
  | .int n => n.natAbs < 10 ^ maxStrDigits
  | _ => True

/-- The value of a float, of its literal. -/
def floatNumber (literal : PyStr) : Number :=
  match scanInt literal with
  | none => .literal literal
  | some (i, s) => decimalOf i (scanFrac s).1 (scanExp (scanFrac s).2).1

lemma sizeOf_lt_arr {elements : List Json} {v : Json} (h : v ∈ elements) :
    sizeOf v < sizeOf (Json.arr elements) := by
  have := List.sizeOf_lt_of_mem h
  rw [Json.arr.sizeOf_spec]
  omega

lemma sizeOf_lt_obj {members : List (PyStr × Json)} {p : PyStr × Json} (h : p ∈ members) :
    sizeOf p.2 < sizeOf (Json.obj members) := by
  have hmem := List.sizeOf_lt_of_mem h
  have hsnd : sizeOf p.2 < sizeOf p := by
    obtain ⟨name, v⟩ := p
    show sizeOf v < sizeOf (name, v)
    rw [Prod.mk.sizeOf_spec]
    omega
  rw [Json.obj.sizeOf_spec]
  omega

/-- The value that a decoded value stands for, of the values of its floats. -/
def valueWith (float : PyStr → Number) : Json → Value
  | .null => .null
  | .bool b => .bool b
  | .int n => .number (.int n)
  | .float literal => .number (float literal)
  | .str s => .string s
  | .arr elements => .array (elements.map (valueWith float))
  | .obj members => .object (members.map fun p => (p.1, valueWith float p.2))
decreasing_by
  · exact sizeOf_lt_arr ‹_›
  · exact sizeOf_lt_obj ‹_›

/-- The value that a decoded value stands for. -/
def value : Json → Value := valueWith floatNumber

lemma foldl_natOfDigits (s : PyStr) (n : ℕ) :
    s.foldl (fun n c => 10 * n + (c - 0x30)) n = n * 10 ^ s.length + natOfDigits s := by
  induction s generalizing n with
  | nil => simp [natOfDigits]
  | cons c s ih =>
      rw [natOfDigits, List.foldl_cons, List.foldl_cons, ih, ih (10 * 0 + _), List.length_cons,
        pow_succ]
      ring

lemma natOfDigits_append (s t : PyStr) :
    natOfDigits (s ++ t) = natOfDigits s * 10 ^ t.length + natOfDigits t := by
  rw [natOfDigits, List.foldl_append, foldl_natOfDigits t]
  rfl

lemma natOfDigits_cons (c : ℕ) (s : PyStr) :
    natOfDigits (c :: s) = (c - 0x30) * 10 ^ s.length + natOfDigits s := by
  rw [natOfDigits, List.foldl_cons, foldl_natOfDigits]
  simp

lemma isDigit_bounds {c : ℕ} (h : isDigit c) : 0x30 ≤ c ∧ c ≤ 0x39 := of_decide_eq_true h

/-- A number is below the power of ten of its digits. -/
lemma natOfDigits_lt {s : PyStr} (h : ∀ c ∈ s, isDigit c) : natOfDigits s < 10 ^ s.length := by
  induction s with
  | nil => simp [natOfDigits]
  | cons c s ih =>
      obtain ⟨hc, hs⟩ := List.forall_mem_cons.mp h
      have hdigit : c - 0x30 ≤ 9 := by
        have := isDigit_bounds hc
        omega
      have hmul := Nat.mul_le_mul_right (10 ^ s.length) hdigit
      have hlt := ih hs
      rw [natOfDigits_cons, List.length_cons, pow_succ]
      omega

/-- A number without a zero in front is not below the power of ten of its digits but one. -/
lemma le_natOfDigits {c : ℕ} {s : PyStr} (hc : isDigit c) (hzero : c ≠ 0x30) :
    10 ^ s.length ≤ natOfDigits (c :: s) := by
  have hdigit : 1 ≤ c - 0x30 := by
    have := isDigit_bounds hc
    omega
  have hmul := Nat.mul_le_mul_right (10 ^ s.length) hdigit
  rw [natOfDigits_cons]
  omega

/-! ### The parts of a number -/

/-- Nothing that a digit begins. -/
def NoDigit (r : PyStr) : Prop := ∀ c ∈ r.head?, ¬isDigit c

lemma takeWhile_digits {s r : PyStr} (hs : ∀ c ∈ s, isDigit c) (hr : NoDigit r) :
    (s ++ r).takeWhile isDigit = s ∧ (s ++ r).dropWhile isDigit = r := by
  rw [List.takeWhile_append_of_pos hs, List.dropWhile_append_of_pos hs]
  cases r with
  | nil => exact ⟨List.append_nil _, rfl⟩
  | cons c r =>
      have hc : ¬isDigit c := hr c rfl
      rw [List.takeWhile_cons_of_neg hc, List.dropWhile_cons_of_neg hc, List.append_nil]
      exact ⟨rfl, rfl⟩

lemma noDigit_dropWhile (s : PyStr) : NoDigit (s.dropWhile isDigit) := by
  intro c hc
  have hhead := List.head?_dropWhile_not isDigit s
  rw [Option.mem_def.mp hc] at hhead
  simpa using hhead

lemma scanDigits_complete {s r : PyStr} (hs : IsDigits s) (hr : NoDigit r) :
    scanDigits (s ++ r) = some (s, r) := by
  obtain ⟨htake, hdrop⟩ := takeWhile_digits hs.2 hr
  rw [scanDigits, htake, hdrop, if_neg hs.1]

lemma scanDigits_sound {s x r : PyStr} (h : scanDigits s = some (x, r)) :
    s = x ++ r ∧ IsDigits x ∧ NoDigit r := by
  rw [scanDigits] at h
  split_ifs at h with hne
  obtain ⟨rfl, rfl⟩ := Prod.mk.inj (Option.some.inj h)
  exact ⟨List.takeWhile_append_dropWhile.symm, ⟨hne, fun c hc => List.mem_takeWhile_imp hc⟩,
    noDigit_dropWhile s⟩

lemma scanNat_complete {s r : PyStr} (hs : IsNat s) (hr : NoDigit r) :
    scanNat (s ++ r) = some (s, r) := by
  rcases hs with rfl | ⟨hdigits, hzero⟩
  · rfl
  · obtain ⟨c, t, rfl⟩ := List.exists_cons_of_ne_nil hdigits.1
    obtain ⟨hc, ht⟩ := List.forall_mem_cons.mp hdigits.2
    obtain ⟨htake, hdrop⟩ := takeWhile_digits ht hr
    rw [List.cons_append, scanNat, if_neg fun h => hzero (by rw [h]; rfl), if_pos hc, htake, hdrop]

lemma scanNat_sound {s x r : PyStr} (h : scanNat s = some (x, r)) :
    s = x ++ r ∧ IsNat x ∧ (x ≠ [0x30] → NoDigit r) := by
  cases s with
  | nil => simp [scanNat] at h
  | cons c s =>
      rw [scanNat] at h
      split_ifs at h with hzero hdigit
      · obtain ⟨rfl, rfl⟩ := Prod.mk.inj (Option.some.inj h)
        exact ⟨rfl, .inl (by rw [hzero]), fun hne => absurd (by rw [hzero]) hne⟩
      · obtain ⟨rfl, rfl⟩ := Prod.mk.inj (Option.some.inj h)
        refine ⟨by rw [List.cons_append, List.takeWhile_append_dropWhile], .inr ⟨⟨by simp, ?_⟩, ?_⟩,
          fun _ => noDigit_dropWhile s⟩
        · exact List.forall_mem_cons.mpr ⟨hdigit, fun d hd => List.mem_takeWhile_imp hd⟩
        · simpa using hzero

lemma exists_digit_of_isNat {s : PyStr} (h : IsNat s) : ∃ c t, s = c :: t ∧ isDigit c := by
  rcases h with rfl | ⟨⟨hne, hdigits⟩, -⟩
  · exact ⟨0x30, [], rfl, rfl⟩
  · obtain ⟨c, t, rfl⟩ := List.exists_cons_of_ne_nil hne
    exact ⟨c, t, rfl, hdigits c List.mem_cons_self⟩

lemma scanInt_complete {s r : PyStr} (hs : IsInt s) (hr : NoDigit r) :
    scanInt (s ++ r) = some (s, r) := by
  rcases hs with hs | ⟨t, rfl, ht⟩
  · have hscan := scanNat_complete hs hr
    obtain ⟨c, t, rfl, hc⟩ := exists_digit_of_isNat hs
    have hminus : c ≠ 0x2d := by
      have := isDigit_bounds hc
      omega
    rw [List.cons_append, scanInt, if_neg hminus]
    exact hscan
  · rw [List.cons_append, scanInt, if_pos rfl, scanNat_complete ht hr]
    rfl

lemma scanInt_sound {s x r : PyStr} (h : scanInt s = some (x, r)) :
    s = x ++ r ∧ IsInt x ∧ (1 < (x.filter isDigit).length → NoDigit r) := by
  have hshort : ∀ {y : PyStr}, y = [0x30] → ¬1 < (y.filter isDigit).length := by
    rintro y rfl
    decide
  cases s with
  | nil => simp [scanInt] at h
  | cons c s =>
      rw [scanInt] at h
      split_ifs at h with hminus
      · obtain ⟨⟨y, r'⟩, hy, he⟩ := Option.map_eq_some_iff.mp h
        obtain ⟨rfl, rfl⟩ := Prod.mk.inj he
        obtain ⟨rfl, hnat, hend⟩ := scanNat_sound hy
        subst hminus
        refine ⟨rfl, .inr ⟨y, rfl, hnat⟩, fun hlong => hend fun heq => hshort heq ?_⟩
        rwa [List.filter_cons_of_neg (by decide)] at hlong
      · obtain ⟨heq, hnat, hend⟩ := scanNat_sound h
        exact ⟨heq, .inl hnat, fun hlong => hend fun hx => hshort hx hlong⟩

lemma scanSignedDigits_complete {s r : PyStr} (hs : IsSignedDigits s) (hr : NoDigit r) :
    scanSignedDigits (s ++ r) = some (s, r) := by
  rcases hs with hs | ⟨sign, t, hsign, rfl, ht⟩
  · have hscan := scanDigits_complete hs hr
    obtain ⟨c, t, rfl⟩ := List.exists_cons_of_ne_nil hs.1
    have hdigit := isDigit_bounds (hs.2 c List.mem_cons_self)
    rw [List.cons_append, scanSignedDigits, if_neg (by omega)]
    exact hscan
  · rw [List.cons_append, scanSignedDigits, if_pos hsign, scanDigits_complete ht hr]
    rfl

lemma scanSignedDigits_sound {s x r : PyStr} (h : scanSignedDigits s = some (x, r)) :
    s = x ++ r ∧ IsSignedDigits x ∧ NoDigit r := by
  cases s with
  | nil => simp [scanSignedDigits] at h
  | cons c s =>
      rw [scanSignedDigits] at h
      split_ifs at h with hsign
      · obtain ⟨⟨y, r'⟩, hy, he⟩ := Option.map_eq_some_iff.mp h
        obtain ⟨rfl, rfl⟩ := Prod.mk.inj he
        obtain ⟨rfl, hdigits, hend⟩ := scanDigits_sound hy
        exact ⟨rfl, .inr ⟨c, y, hsign, rfl, hdigits⟩, hend⟩
      · obtain ⟨heq, hdigits, hend⟩ := scanDigits_sound h
        exact ⟨heq, .inl hdigits, hend⟩

section Part

variable {mark : ℕ → Bool} {scan : PyStr → Option (PyStr × PyStr)} {Body : PyStr → Prop}

/-- A part of a number is there, or nothing begins like one. -/
lemma scanPart_sound (mark : ℕ → Bool) (Body : PyStr → Prop)
    (hsound : ∀ s x r, scan s = some (x, r) → s = x ++ r ∧ Body x ∧ NoDigit r) (s : PyStr) :
    s = (scanPart mark scan s).1 ++ (scanPart mark scan s).2 ∧
      ((scanPart mark scan s).1 = [] ∨
        (∃ c x, (scanPart mark scan s).1 = c :: x ∧ mark c ∧ Body x) ∧
          NoDigit (scanPart mark scan s).2) := by
  cases s with
  | nil => exact ⟨rfl, .inl rfl⟩
  | cons c s =>
      rw [scanPart]
      split_ifs with hmark
      · split
        · rename_i x r hx
          obtain ⟨rfl, hbody, hend⟩ := hsound _ _ _ hx
          exact ⟨rfl, .inr ⟨⟨c, x, rfl, hmark, hbody⟩, hend⟩⟩
        · exact ⟨rfl, .inl rfl⟩
      · exact ⟨rfl, .inl rfl⟩

/-- A part of a number is scanned. -/
lemma scanPart_complete (hcomplete : ∀ x r, Body x → NoDigit r → scan (x ++ r) = some (x, r))
    {c : ℕ} {x r : PyStr} (hmark : mark c) (hx : Body x) (hr : NoDigit r) :
    scanPart mark scan (c :: x ++ r) = (c :: x, r) := by
  rw [List.cons_append, scanPart, if_pos hmark, hcomplete x r hx hr]

/-- Without its mark there is no part. -/
lemma scanPart_of_head {s : PyStr} (h : ∀ c ∈ s.head?, ¬mark c) :
    scanPart mark scan s = ([], s) := by
  cases s with
  | nil => rfl
  | cons c s => rw [scanPart, if_neg (h c rfl)]

end Part

/-- A fraction, or no fraction. -/
lemma scanFrac_sound (s : PyStr) : s = (scanFrac s).1 ++ (scanFrac s).2 ∧
    ((scanFrac s).1 = [] ∨ IsFrac (scanFrac s).1 ∧ NoDigit (scanFrac s).2) := by
  obtain ⟨heq, hpart⟩ := scanPart_sound (fun c => c = 0x2e) IsDigits
    (fun _ _ _ => scanDigits_sound) s
  refine ⟨heq, hpart.imp_right fun ⟨⟨c, x, hx, hc, hdigits⟩, hend⟩ => ⟨⟨x, ?_, hdigits⟩, hend⟩⟩
  rw [← of_decide_eq_true hc]
  exact hx

/-- An exponent, or no exponent. -/
lemma scanExp_sound (s : PyStr) : s = (scanExp s).1 ++ (scanExp s).2 ∧
    ((scanExp s).1 = [] ∨ IsExp (scanExp s).1 ∧ NoDigit (scanExp s).2) := by
  obtain ⟨heq, hpart⟩ := scanPart_sound (fun c => c = 0x65 ∨ c = 0x45) IsSignedDigits
    (fun _ _ _ => scanSignedDigits_sound) s
  exact ⟨heq, hpart.imp_right fun ⟨⟨c, x, hx, hc, hdigits⟩, hend⟩ =>
    ⟨⟨c, x, of_decide_eq_true hc, hx, hdigits⟩, hend⟩⟩

lemma scanFrac_complete {f r : PyStr} (hf : f = [] ∨ IsFrac f) (hr : NoDigit r)
    (hpoint : r.head? ≠ some 0x2e) : scanFrac (f ++ r) = (f, r) := by
  rcases hf with rfl | ⟨t, rfl, ht⟩
  · exact scanPart_of_head fun c hc => by
      rintro hmark
      exact hpoint (of_decide_eq_true hmark ▸ hc)
  · exact scanPart_complete (fun _ _ => scanDigits_complete) (by decide) ht hr

lemma scanExp_complete {e r : PyStr} (he : e = [] ∨ IsExp e) (hr : NoDigit r)
    (hmark : r.head? ≠ some 0x65 ∧ r.head? ≠ some 0x45) : scanExp (e ++ r) = (e, r) := by
  rcases he with rfl | ⟨c, t, hc, rfl, ht⟩
  · refine scanPart_of_head fun c hc hdec => ?_
    rcases of_decide_eq_true hdec with rfl | rfl
    · exact hmark.1 hc
    · exact hmark.2 hc
  · exact scanPart_complete (fun _ _ => scanSignedDigits_complete) (decide_eq_true hc) ht hr

/-! ### Numbers, in front of what ends them -/

/-- What a value may stand in front of. -/
def EndsToken (r : PyStr) : Prop :=
  ∀ c ∈ r.head?, isSpace c ∨ c = 0x2c ∨ c = 0x5d ∨ c = 0x7d

lemma EndsToken.ne {r : PyStr} (h : EndsToken r) :
    NoDigit r ∧ r.head? ≠ some 0x2e ∧ r.head? ≠ some 0x65 ∧ r.head? ≠ some 0x45 := by
  have hall : ∀ c ∈ r.head?, ¬isDigit c ∧ c ≠ 0x2e ∧ c ≠ 0x65 ∧ c ≠ 0x45 := by
    intro c hc
    simp only [EndsToken, isSpace, decide_eq_true_eq] at h
    simp only [isDigit, decide_eq_true_eq]
    have := h c hc
    omega
  exact ⟨fun c hc => (hall c hc).1, fun hc => (hall _ hc).2.1 rfl, fun hc => (hall _ hc).2.2.1 rfl,
    fun hc => (hall _ hc).2.2.2 rfl⟩

/-- What a number is scanned to. -/
lemma scan_parts {i f e r : PyStr} (hi : IsInt i) (hf : f = [] ∨ IsFrac f) (he : e = [] ∨ IsExp e)
    (hr : NoDigit r ∧ r.head? ≠ some 0x2e ∧ r.head? ≠ some 0x65 ∧ r.head? ≠ some 0x45) :
    scanInt (i ++ (f ++ (e ++ r))) = some (i, f ++ (e ++ r)) ∧
      scanFrac (f ++ (e ++ r)) = (f, e ++ r) ∧ scanExp (e ++ r) = (e, r) := by
  obtain ⟨hdigit, hpoint, hmark⟩ := hr
  have hexp : NoDigit (e ++ r) ∧ (e ++ r).head? ≠ some 0x2e := by
    rcases he with rfl | ⟨c, t, hc, rfl, -⟩
    · exact ⟨hdigit, hpoint⟩
    · rcases hc with rfl | rfl
      · exact ⟨by rintro c ⟨⟩; decide, by simp⟩
      · exact ⟨by rintro c ⟨⟩; decide, by simp⟩
  have hfrac : NoDigit (f ++ (e ++ r)) := by
    rcases hf with rfl | ⟨t, rfl, -⟩
    · exact hexp.1
    · rintro c ⟨⟩
      decide
  exact ⟨scanInt_complete hi hfrac, scanFrac_complete hf hexp.1 hexp.2,
    scanExp_complete he hdigit hmark⟩

/-- The value of a float is that of its parts. -/
lemma floatNumber_eq {i f e : PyStr} (hi : IsInt i) (hf : f = [] ∨ IsFrac f)
    (he : e = [] ∨ IsExp e) : floatNumber (i ++ (f ++ e)) = decimalOf i f e := by
  obtain ⟨hint, hfrac, hexp⟩ := scan_parts (r := []) hi hf he
    ⟨by rintro c ⟨⟩, by simp, by simp, by simp⟩
  rw [List.append_nil] at hint hfrac hexp
  rw [floatNumber, hint]
  dsimp only
  rw [hfrac, hexp]

lemma filter_digits {s : PyStr} (h : ∀ c ∈ s, isDigit c) : s.filter isDigit = s :=
  List.filter_eq_self.mpr h

lemma IsInt.natAbs {i : PyStr} (h : IsInt i) :
    (intOfLiteral i).natAbs = natOfDigits (i.filter isDigit) ∧ IsNat (i.filter isDigit) := by
  have hdigits : ∀ {s : PyStr}, IsNat s → ∀ c ∈ s, isDigit c := by
    rintro s (rfl | ⟨⟨-, hs⟩, -⟩)
    · decide
    · exact hs
  rcases h with h | ⟨t, rfl, ht⟩
  · rw [filter_digits (hdigits h)]
    obtain ⟨c, t, rfl, hc⟩ := exists_digit_of_isNat h
    have hminus : c ≠ 0x2d := by
      have := isDigit_bounds hc
      omega
    rw [intOfLiteral, if_neg hminus]
    exact ⟨rfl, h⟩
  · rw [List.filter_cons_of_neg (by decide), filter_digits (hdigits ht), intOfLiteral, if_pos rfl,
      Int.natAbs_neg]
    exact ⟨rfl, ht⟩

/-- A number is below a power of ten if it has no more digits. -/
lemma natOfDigits_lt_iff {s : PyStr} (h : IsNat s) (n : ℕ) (hn : 0 < n) :
    natOfDigits s < 10 ^ n ↔ s.length ≤ n := by
  rcases h with rfl | ⟨⟨hne, hdigits⟩, hzero⟩
  · exact iff_of_true (pow_pos (by norm_num) n) hn
  · obtain ⟨c, t, rfl⟩ := List.exists_cons_of_ne_nil hne
    have hc : c ≠ 0x30 := fun hc => hzero (by rw [hc]; rfl)
    constructor
    · intro hlt
      have hle := (le_natOfDigits (s := t) (hdigits c List.mem_cons_self) hc).trans_lt hlt
      exact (Nat.pow_lt_pow_iff_right (by norm_num)).mp hle
    · intro hle
      exact (natOfDigits_lt hdigits).trans_le (Nat.pow_le_pow_right (by norm_num) hle)

/-- An integer is short if its literal is. -/
lemma short_intOfLiteral {i : PyStr} (h : IsInt i) :
    Short (.int (intOfLiteral i)) ↔ ¬maxStrDigits < (i.filter isDigit).length := by
  obtain ⟨habs, hnat⟩ := IsInt.natAbs h
  rw [Short, habs, natOfDigits_lt_iff hnat _ (by decide), not_lt]

/-- **A number that is scanned** is one, and short. -/
theorem scanNumber_sound {s r : PyStr} {j : Json} (h : scanNumber s = some (.ok (j, r))) :
    ∃ t n, s = t ++ r ∧ IsNumber t n ∧ Short n ∧ j.value = .number n := by
  rw [scanNumber] at h
  split at h
  · simp at h
  rename_i i s' hi
  obtain ⟨rfl, hint, -⟩ := scanInt_sound hi
  obtain ⟨hs', hfrac⟩ := scanFrac_sound s'
  obtain ⟨hs'', hexp⟩ := scanExp_sound (scanFrac s').2
  dsimp only at h
  split_ifs at h with hempty hlong
  · simp at h
  · obtain ⟨rfl, rfl⟩ := Prod.mk.inj (Except.ok.inj (Option.some.inj h))
    refine ⟨i, .int (intOfLiteral i), ?_, .int hint, (short_intOfLiteral hint).mpr hlong,
      by rw [value, valueWith]⟩
    rw [hempty.1, List.nil_append] at hs'
    rw [hempty.2, List.nil_append] at hs''
    rw [← hs'', ← hs']
  · obtain ⟨rfl, rfl⟩ := Prod.mk.inj (Except.ok.inj (Option.some.inj h))
    set f := (scanFrac s').1
    set e := (scanExp (scanFrac s').2).1
    have hf : f = [] ∨ IsFrac f := hfrac.imp_right And.left
    have he : e = [] ∨ IsExp e := hexp.imp_right And.left
    refine ⟨i ++ (f ++ e), decimalOf i f e, ?_, .decimal hint hf he ?_, trivial, ?_⟩
    · rw [List.append_assoc, List.append_assoc, ← hs'', ← hs']
    · by_contra hnone
      push Not at hnone
      exact absurd hnone hempty
    · rw [value, valueWith, List.append_assoc, floatNumber_eq hint hf he]

/-- What a number may be scanned to: its value, or an error if it is too long. -/
theorem scanNumber_complete {t r : PyStr} {n : Number} (h : IsNumber t n) (hr : EndsToken r) :
    (∃ j, scanNumber (t ++ r) = some (.ok (j, r)) ∧ j.value = .number n) ∨
      scanNumber (t ++ r) = some (.error .digits) ∧ ¬Short n := by
  cases h with
  | int hi =>
      obtain ⟨hint, hfrac, hexp⟩ := scan_parts hi (.inl rfl) (.inl rfl) hr.ne
      rw [List.nil_append] at hexp
      rw [List.nil_append, List.nil_append] at hint hfrac
      have hscan : scanNumber (t ++ r) = if maxStrDigits < (t.filter isDigit).length then
          some (.error .digits) else some (.ok (.int (intOfLiteral t), r)) := by
        rw [scanNumber, hint]
        dsimp only
        rw [hfrac]
        dsimp only
        rw [hexp]
        dsimp only
        rw [if_pos ⟨rfl, rfl⟩]
      rw [hscan]
      split_ifs with hlong
      · exact .inr ⟨rfl, fun hshort => (short_intOfLiteral hi).mp hshort hlong⟩
      · exact .inl ⟨_, rfl, by rw [value, valueWith]⟩
  | @decimal i f e hi hf he hne =>
      obtain ⟨hint, hfrac, hexp⟩ := scan_parts hi hf he hr.ne
      have hboth : ¬(f = [] ∧ e = []) := by
        rintro ⟨rfl, rfl⟩
        exact hne.elim (· rfl) (· rfl)
      refine .inl ⟨.float (i ++ f ++ e), ?_, ?_⟩
      · rw [scanNumber, List.append_assoc, List.append_assoc, hint]
        dsimp only
        rw [hfrac]
        dsimp only
        rw [hexp]
        dsimp only
        rw [if_neg hboth]
      · rw [value, valueWith, List.append_assoc, floatNumber_eq hi hf he]

/-! ### Integers that are too long -/

/-- A text that begins with an integer of more digits than `int` converts: no digit,
fraction or exponent follows it. -/
def LongInteger (s : PyStr) : Prop :=
  ∃ i r, s = i ++ r ∧ IsInt i ∧ maxStrDigits < (i.filter isDigit).length ∧ NoDigit r ∧
    ¬∃ t r', r = t ++ r' ∧ (IsFrac t ∨ IsExp t)

lemma scanDigits_ne_none {x r : PyStr} (hx : IsDigits x) : scanDigits (x ++ r) ≠ none := by
  obtain ⟨c, t, rfl⟩ := List.exists_cons_of_ne_nil hx.1
  rw [scanDigits, if_neg]
  · simp
  · rw [List.cons_append, List.takeWhile_cons_of_pos (hx.2 c List.mem_cons_self)]
    exact List.cons_ne_nil _ _

/-- A fraction that begins a text is scanned. -/
lemma scanFrac_ne_nil {t r : PyStr} (ht : IsFrac t) : (scanFrac (t ++ r)).1 ≠ [] := by
  obtain ⟨x, rfl, hx⟩ := ht
  obtain ⟨p, hp⟩ := Option.ne_none_iff_exists'.mp (scanDigits_ne_none (r := r) hx)
  rw [scanFrac, List.cons_append, scanPart, if_pos (by decide), hp]
  exact List.cons_ne_nil _ _

/-- An exponent that begins a text is scanned. -/
lemma scanExp_ne_nil {t r : PyStr} (ht : IsExp t) : (scanExp (t ++ r)).1 ≠ [] := by
  obtain ⟨c, x, hc, rfl, hx⟩ := ht
  have hsome : scanSignedDigits (x ++ r) ≠ none := by
    rcases hx with hx | ⟨sign, y, hsign, rfl, hy⟩
    · have hscan := scanDigits_ne_none (r := r) hx
      obtain ⟨d, y, rfl⟩ := List.exists_cons_of_ne_nil hx.1
      have hdigit := isDigit_bounds (hx.2 d List.mem_cons_self)
      rw [List.cons_append, scanSignedDigits, if_neg (by omega)]
      exact hscan
    · rw [List.cons_append, scanSignedDigits, if_pos hsign, Ne, Option.map_eq_none_iff]
      exact scanDigits_ne_none hy
  obtain ⟨p, hp⟩ := Option.ne_none_iff_exists'.mp hsome
  rw [scanExp, List.cons_append, scanPart, if_pos (decide_eq_true hc), hp]
  exact List.cons_ne_nil _ _

/-- **An integer that is too long** makes the scan of a number fail, and nothing else does. -/
theorem scanNumber_eq_digits_iff {s : PyStr} :
    scanNumber s = some (.error .digits) ↔ LongInteger s := by
  constructor
  · intro h
    rw [scanNumber] at h
    split at h
    · simp at h
    rename_i i r hi
    obtain ⟨rfl, hint, hend⟩ := scanInt_sound hi
    dsimp only at h
    split_ifs at h with hempty hlong
    · have hdigits : 1 < (i.filter isDigit).length := lt_trans (by decide) hlong
      refine ⟨i, r, rfl, hint, hlong, hend hdigits, ?_⟩
      have hrest := (scanFrac_sound r).1
      rw [hempty.1, List.nil_append] at hrest
      rintro ⟨t, r', rfl, ht | ht⟩
      · exact scanFrac_ne_nil ht hempty.1
      · rw [← hrest] at hempty
        exact scanExp_ne_nil ht hempty.2
    · simp at h
    · simp at h
  -- neither a fraction nor an exponent is there, so that the digits are counted
  · rintro ⟨i, r, rfl, hint, hlong, hend, hnone⟩
    obtain ⟨hr, hfrac⟩ := scanFrac_sound r
    have hf : (scanFrac r).1 = [] := hfrac.resolve_right fun h => hnone ⟨_, _, hr, .inl h.1⟩
    rw [hf, List.nil_append] at hr
    obtain ⟨hr', hexp⟩ := scanExp_sound (scanFrac r).2
    have he : (scanExp (scanFrac r).2).1 = [] :=
      hexp.resolve_right fun h => hnone ⟨_, _, hr.trans hr', .inr h.1⟩
    rw [scanNumber, scanInt_complete hint hend]
    dsimp only
    rw [if_pos ⟨hf, he⟩, if_pos hlong]

/-! ### Literals -/

lemma scanLiteral_sound {s r : PyStr} {j : Json} (h : scanLiteral s = some (j, r)) :
    ∃ p ∈ literals, s = p.1 ++ r ∧ j = p.2 := by
  obtain ⟨p, hp, he⟩ := Option.map_eq_some_iff.mp h
  obtain ⟨rfl, rfl⟩ := Prod.mk.inj he
  have hprefix : p.1 <+: s := by simpa using List.find?_some hp
  obtain ⟨r, rfl⟩ := hprefix
  exact ⟨p, List.mem_of_find?_eq_some hp, by rw [List.drop_left], rfl⟩

lemma scanLiteral_complete {p : PyStr × Json} (hp : p ∈ literals) (r : PyStr) :
    scanLiteral (p.1 ++ r) = some (p.2, r) := by
  simp only [literals, List.mem_cons, List.not_mem_nil, or_false] at hp
  rcases hp with rfl | rfl | rfl | rfl | rfl | rfl <;> rfl

/-- A number begins with a digit, maybe behind a minus. -/
lemma IsInt.head {i : PyStr} (h : IsInt i) :
    ∃ c t, isDigit c ∧ (i = c :: t ∨ i = 0x2d :: c :: t) := by
  rcases h with h | ⟨t, rfl, ht⟩
  · obtain ⟨c, t, rfl, hc⟩ := exists_digit_of_isNat h
    exact ⟨c, t, hc, .inl rfl⟩
  · obtain ⟨c, t, rfl, hc⟩ := exists_digit_of_isNat ht
    exact ⟨c, t, hc, .inr rfl⟩

/-- A literal begins with two characters that are no digits. -/
lemma exists_of_mem_literals {p : PyStr × Json} (hp : p ∈ literals) :
    ∃ a b s, p.1 = a :: b :: s ∧ ¬isDigit a ∧ ¬isDigit b := by
  simp only [literals, List.mem_cons, List.not_mem_nil, or_false] at hp
  rcases hp with rfl | rfl | rfl | rfl | rfl | rfl <;>
    exact ⟨_, _, _, rfl, by decide, by decide⟩

/-- No literal begins like a number. -/
lemma scanLiteral_of_isInt {i : PyStr} (h : IsInt i) (r : PyStr) : scanLiteral (i ++ r) = none := by
  by_contra hne
  obtain ⟨⟨j, r'⟩, hj⟩ := Option.ne_none_iff_exists'.mp hne
  obtain ⟨p, hp, heq, -⟩ := scanLiteral_sound hj
  obtain ⟨a, b, s, hs, ha, hb⟩ := exists_of_mem_literals hp
  obtain ⟨c, t, hc, hi⟩ := IsInt.head h
  rw [hs] at heq
  rcases hi with rfl | rfl
  · exact ha ((List.cons.inj heq).1 ▸ hc)
  · exact hb ((List.cons.inj (List.cons.inj heq).2).1 ▸ hc)

end Json
