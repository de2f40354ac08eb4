import Mathlib.Data.Int.Notation
import CodexResetProxy.Library.Dict
import CodexResetProxy.Library.PyStr

/-!
Python's `json.loads` on a `str`, with default options.

The decoder is the recursive descent of the `json` module, with its order of
checks and its messages: `scanString`, `scanNumber`, `scanElements` for the
inside of an array, `scanMembers` for the inside of an object, `scanOnce` for a
value. It accepts `NaN`, `Infinity` and `-Infinity`, keeps the last value of a
repeated name, joins an escaped surrogate pair and keeps a lone escaped
surrogate, raises a plain `ValueError` for an integer of more than 4300 digits
and a `RecursionError` for containers nested deeper than the interpreter
allows (`depth`).

The loops over elements and members are bounded by the length of the text,
which they cannot use up: a value takes at least one character
(`scanOnce_length`), so more than enough fuel changes nothing
(`scanElements_fuel`, `scanMembers_fuel`).
-/

/-- A decoded JSON value. A float is kept as its literal. -/
inductive Json where
  | null
  | bool (b : Bool)
  | int (n : ℤ)
  | float (literal : PyStr)
  | str (s : PyStr)
  | arr (elements : List Json)
  | obj (members : List (PyStr × Json))

/-- What `json.loads` raises: `JSONDecodeError` with its message, the
`ValueError` of an integer that is too long, or `RecursionError`. -/
inductive JsonError where
  | decode (msg : String)
  | digits
  | recursion
  deriving DecidableEq

namespace Json

/-- `payload.get(name)` of a dictionary, `none` for anything else. -/
def get? (name : PyStr) : Json → Option Json
  | .obj members => members.valueAt name
  | _ => none

/-- The string a value is, if it is one. -/
def asStr : Json → Option PyStr
  | .str s => some s
  | _ => none

/-! ### Lexical elements -/

/-- JSON's white space: blank, tab, line feed, carriage return. -/
def isSpace (c : ℕ) : Bool := c = 0x20 ∨ c = 0x09 ∨ c = 0x0a ∨ c = 0x0d

/-- `_w(s, idx).end()`: the text from the first character that is not space. -/
def skipSpace (s : PyStr) : PyStr := s.dropWhile isSpace

/-- A decimal digit. -/
def isDigit (c : ℕ) : Bool := 0x30 ≤ c ∧ c ≤ 0x39

/-- The value of a hexadecimal digit. -/
def hexDigit? (c : ℕ) : Option ℕ :=
  if 0x30 ≤ c ∧ c ≤ 0x39 then some (c - 0x30)
  else if 0x41 ≤ c ∧ c ≤ 0x46 then some (c - 0x41 + 10)
  else if 0x61 ≤ c ∧ c ≤ 0x66 then some (c - 0x61 + 10)
  else none

/-- `_decode_uXXXX`: four hexadecimal digits, and the text after them. -/
def hex4? : PyStr → Option (ℕ × PyStr)
  | a :: b :: c :: d :: s =>
      match hexDigit? a, hexDigit? b, hexDigit? c, hexDigit? d with
      | some a, some b, some c, some d => some (((a * 16 + b) * 16 + c) * 16 + d, s)
      | _, _, _, _ => none
  | _ => none

/-- The one-character escapes. -/
def escape? (c : ℕ) : Option ℕ :=
  if c = 0x22 ∨ c = 0x5c ∨ c = 0x2f then some c
  else if c = 0x62 then some 0x08
  else if c = 0x66 then some 0x0c
  else if c = 0x6e then some 0x0a
  else if c = 0x72 then some 0x0d
  else if c = 0x74 then some 0x09
  else none

/-- The text after `\u`, if it begins so. -/
def afterBackslashU? : PyStr → Option PyStr
  | x :: y :: s => if x = 0x5c ∧ y = 0x75 then some s else none
  | _ => none

/-- The escape `\uXXXX`, from after the `u`: the character and the text after
it. A high surrogate looks for the low one that completes it. Neither may end the
text. -/
def scanUnicodeEscape (s : PyStr) : Except JsonError (ℕ × PyStr) :=
  match hex4? s with
  | none => .error (.decode "Invalid \\uXXXX escape")
  | some (hi, s) =>
      if s = [] then .error (.decode "Invalid \\uXXXX escape")
      else if 0xd800 ≤ hi ∧ hi ≤ 0xdbff ∧ 6 < s.length then
        match afterBackslashU? s with
        | none => .ok (hi, s)
        | some t =>
            match hex4? t with
            | none => .error (.decode "Invalid \\uXXXX escape")
            | some (lo, t) =>
                if 0xdc00 ≤ lo ∧ lo ≤ 0xdfff then
                  .ok (0x10000 + ((hi - 0xd800) * 0x400 + (lo - 0xdc00)), t)
                else .ok (hi, s)
      else .ok (hi, s)

/-- An escape, from after the backslash. -/
def scanEscape : PyStr → Except JsonError (ℕ × PyStr)
  | [] => .error (.decode "Unterminated string starting at")
  | c :: s =>
      if c = 0x75 then scanUnicodeEscape s
      else
        match escape? c with
        | none => .error (.decode "Invalid \\escape")
        | some x => .ok (x, s)

/-- `scanstring`, from after the opening quote: the decoded string and the text
after the closing quote. The bound on the number of characters is the length of
the text. -/
def scanStringFrom : ℕ → PyStr → Except JsonError (PyStr × PyStr)
  | n + 1, c :: s =>
      if c = 0x22 then .ok ([], s)
      else if c = 0x5c then do
        let (x, s) ← scanEscape s
        let (xs, s) ← scanStringFrom n s
        return (x :: xs, s)
      else if c < 0x20 then .error (.decode "Invalid control character at")
      else do
        let (xs, s) ← scanStringFrom n s
        return (c :: xs, s)
  | _, _ => .error (.decode "Unterminated string starting at")

/-- `scanstring`. -/
def scanString (s : PyStr) : Except JsonError (PyStr × PyStr) := scanStringFrom s.length s

example : scanString (py "a\\n\\u00e9\\ud83d\\ude00\\ud800\"x")
    = .ok ([0x61, 0x0a, 0xe9, 0x1f600, 0xd800], py "x") := by rfl

example : scanString (py "\\ud83d\\ude00") = .error (.decode "Invalid \\uXXXX escape") ∧
    scanString (py "\\n") = .error (.decode "Unterminated string starting at") := by
  constructor <;> rfl

/-- `0|[1-9][0-9]*`. -/
def scanNat : PyStr → Option (PyStr × PyStr)
  | [] => none
  | c :: s =>
      if c = 0x30 then some ([c], s)
      else if isDigit c then some (c :: s.takeWhile isDigit, s.dropWhile isDigit)
      else none

/-- `-?(?:0|[1-9][0-9]*)`: the literal of an integer and the text after it. -/
def scanInt : PyStr → Option (PyStr × PyStr)
  | [] => none
  | c :: s =>
      if c = 0x2d then (scanNat s).map fun p => (c :: p.1, p.2) else scanNat (c :: s)

/-- `[0-9]+`. -/
def scanDigits (s : PyStr) : Option (PyStr × PyStr) :=
  if s.takeWhile isDigit = [] then none else some (s.takeWhile isDigit, s.dropWhile isDigit)

/-- `[-+]?[0-9]+`. -/
def scanSignedDigits : PyStr → Option (PyStr × PyStr)
  | [] => none
  | c :: s =>
      if c = 0x2b ∨ c = 0x2d then (scanDigits s).map fun p => (c :: p.1, p.2)
      else scanDigits (c :: s)

/-- An optional part of a number, behind a mark: its literal, empty if there is
none, and the text after it. -/
def scanPart (mark : ℕ → Bool) (scan : PyStr → Option (PyStr × PyStr)) : PyStr → PyStr × PyStr
  | [] => ([], [])
  | c :: s =>
      if mark c then
        match scan s with
        | some (digits, r) => (c :: digits, r)
        | none => ([], c :: s)
      else ([], c :: s)

/-- `(\.[0-9]+)?`. -/
def scanFrac : PyStr → PyStr × PyStr := scanPart (fun c => c = 0x2e) scanDigits

/-- `([eE][-+]?[0-9]+)?`. -/
def scanExp : PyStr → PyStr × PyStr :=
  scanPart (fun c => c = 0x65 ∨ c = 0x45) scanSignedDigits

/-- The natural number of a string of digits. -/
def natOfDigits (s : PyStr) : ℕ := s.foldl (fun n c => 10 * n + (c - 0x30)) 0

/-- `int(literal)`. -/
def intOfLiteral : PyStr → ℤ
  | [] => 0
  | c :: s => if c = 0x2d then -(natOfDigits s : ℤ) else natOfDigits (c :: s)

/-- The most digits `int` converts. -/
def maxStrDigits : ℕ := 4300

/-- The number a text begins with: `none` if it begins with none. -/
def scanNumber (s : PyStr) : Option (Except JsonError (Json × PyStr)) :=
  match scanInt s with
  | none => none
  | some (i, s) =>
      let (f, s) := scanFrac s
      let (e, s) := scanExp s
      if f = [] ∧ e = [] then
        if maxStrDigits < (i.filter isDigit).length then some (.error .digits)
        else some (.ok (.int (intOfLiteral i), s))
      else some (.ok (.float (i ++ f ++ e), s))

/-- The literals, in the order in which the scanner looks for them. -/
def literals : List (PyStr × Json) :=
  [(py "null", .null), (py "true", .bool true), (py "false", .bool false),
    (py "NaN", .float (py "NaN")), (py "Infinity", .float (py "Infinity")),
    (py "-Infinity", .float (py "-Infinity"))]

/-- The literal a text begins with, and the text after it. -/
def scanLiteral (s : PyStr) : Option (Json × PyStr) :=
  (literals.find? fun p => p.1.isPrefixOf s).map fun p => (p.2, s.drop p.1.length)

/-! ### Containers -/

/-- `dict(pairs)`: the last value of a repeated name. -/
def dictOfPairs (pairs : List (PyStr × Json)) : List (PyStr × Json) :=
  pairs.foldl (fun d p => d.upsert p.1 p.2) []

variable (scan : PyStr → Except JsonError (Json × PyStr))

/-- The elements of an array up to the closing bracket, from where the next
element begins. The bound on their number is the length of the text. -/
def scanElements : ℕ → PyStr → Except JsonError (List Json × PyStr)
  | 0, _ => .error (.decode "Expecting value")
  | n + 1, s => do
      let (v, s) ← scan s
      match skipSpace s with
      | c :: s =>
          if c = 0x5d then return ([v], s)
          else if c = 0x2c then
            let (vs, s) ← scanElements n (skipSpace s)
            return (v :: vs, s)
          else .error (.decode "Expecting ',' delimiter")
      | [] => .error (.decode "Expecting ',' delimiter")

/-- `JSONArray`, from after the opening bracket. -/
def scanArray (s : PyStr) : Except JsonError (Json × PyStr) :=
  if (skipSpace s).head? = some 0x5d then .ok (.arr [], (skipSpace s).tail)
  else do
    let (vs, s) ← scanElements scan ((skipSpace s).length + 1) (skipSpace s)
    return (.arr vs, s)

/-- The members of an object up to the closing brace, from where the next name
begins. The bound on their number is the length of the text. -/
def scanMembers : ℕ → PyStr → Except JsonError (List (PyStr × Json) × PyStr)
  | n + 1, c :: s =>
      if c = 0x22 then do
        let (name, s) ← scanString s
        match skipSpace s with
        | c :: s =>
            if c = 0x3a then
              let (v, s) ← scan (skipSpace s)
              match skipSpace s with
              | c :: s =>
                  if c = 0x7d then return ([(name, v)], s)
                  else if c = 0x2c then
                    let (ms, s) ← scanMembers n (skipSpace s)
                    return ((name, v) :: ms, s)
                  else .error (.decode "Expecting ',' delimiter")
              | [] => .error (.decode "Expecting ',' delimiter")
            else .error (.decode "Expecting ':' delimiter")
        | [] => .error (.decode "Expecting ':' delimiter")
      else .error (.decode "Expecting property name enclosed in double quotes")
  | _, _ => .error (.decode "Expecting property name enclosed in double quotes")

/-- `JSONObject`, from after the opening brace. -/
def scanObject (s : PyStr) : Except JsonError (Json × PyStr) :=
  if (skipSpace s).head? = some 0x7d then .ok (.obj [], (skipSpace s).tail)
  else do
    let (ms, s) ← scanMembers scan ((skipSpace s).length + 1) (skipSpace s)
    return (.obj (dictOfPairs ms), s)

/-- `scan_once`: the value a text begins with and the text after it; `depth`
counts the containers that may still be opened. -/
def scanOnce : ℕ → PyStr → Except JsonError (Json × PyStr)
  | _, [] => .error (.decode "Expecting value")
  | depth, c :: s =>
      if c = 0x22 then do
        let (x, s) ← scanString s
        return (.str x, s)
      else if c = 0x7b then
        match depth with
        | 0 => .error .recursion
        | d + 1 => scanObject (scanOnce d) s
      else if c = 0x5b then
        match depth with
        | 0 => .error .recursion
        | d + 1 => scanArray (scanOnce d) s
      else
        match scanLiteral (c :: s) with
        | some r => .ok r
        | none => (scanNumber (c :: s)).getD (.error (.decode "Expecting value"))

/-- `json.loads(s)`. -/
def loads (depth : ℕ) (s : PyStr) : Except JsonError Json :=
  if s.head? = some 0xfeff then
    .error (.decode "Unexpected UTF-8 BOM (decode using utf-8-sig)")
  else do
    let (v, s) ← scanOnce depth (skipSpace s)
    if skipSpace s = [] then return v else .error (.decode "Extra data")

/-! ### Every value takes a character -/

/-- A computation with exceptions succeeds just when its parts do. -/
lemma bind_eq_ok {ε α β : Type} {x : Except ε α} {f : α → Except ε β} {b : β} :
    x >>= f = .ok b ↔ ∃ a, x = .ok a ∧ f a = .ok b := by
  cases x with
  | error e => simp [bind, Except.bind]
  | ok a => simp [bind, Except.bind]

@[simp] lemma pure_eq_ok {ε α : Type} {a b : α} : (pure a : Except ε α) = .ok b ↔ a = b := by
  simp [pure, Except.pure]

lemma length_skipSpace_le (s : PyStr) : (skipSpace s).length ≤ s.length :=
  (List.dropWhile_sublist isSpace).length_le

lemma hex4?_length {s r : PyStr} {n : ℕ} (h : hex4? s = some (n, r)) :
    s.length = r.length + 4 := by
  unfold hex4? at h
  split at h
  · split at h
    · simp only [Option.some.injEq, Prod.mk.injEq] at h
      rw [← h.2]
      simp only [List.length_cons]
    · simp at h
  · simp at h

lemma afterBackslashU?_length {s r : PyStr} (h : afterBackslashU? s = some r) :
    s.length = r.length + 2 := by
  unfold afterBackslashU? at h
  split at h
  · split_ifs at h
    obtain rfl := Option.some.inj h
    simp only [List.length_cons]
  · simp at h

/-- What follows a code unit does not make a pair of surrogates with it. -/
def Lone (hi : ℕ) (s : PyStr) : Prop :=
  ∀ t, 0xd800 ≤ hi → hi ≤ 0xdbff → 6 < s.length → afterBackslashU? s = some t →
    ∃ lo t', hex4? t = some (lo, t') ∧ ¬(0xdc00 ≤ lo ∧ lo ≤ 0xdfff)

/-- **What an escape `\uXXXX` is read as**: the code unit alone, or a pair. -/
inductive ReadsUnit (s : PyStr) : ℕ → PyStr → Prop
  | lone {hi : ℕ} {r : PyStr} (hhi : hex4? s = some (hi, r)) (hne : r ≠ []) (h : Lone hi r) :
      ReadsUnit s hi r
  | pair {hi lo : ℕ} {s' t r : PyStr} (hhi : hex4? s = some (hi, s'))
      (hhigh : 0xd800 ≤ hi ∧ hi ≤ 0xdbff) (hu : afterBackslashU? s' = some t)
      (hlo : hex4? t = some (lo, r)) (hlow : 0xdc00 ≤ lo ∧ lo ≤ 0xdfff) (hne : r ≠ []) :
      ReadsUnit s (0x10000 + ((hi - 0xd800) * 0x400 + (lo - 0xdc00))) r

lemma readsUnit_of_scan {s r : PyStr} {x : ℕ} (h : scanUnicodeEscape s = .ok (x, r)) :
    ReadsUnit s x r := by
  unfold scanUnicodeEscape at h
  split at h
  · cases h
  rename_i hi s' hhi
  split_ifs at h with hend hhigh
  · obtain ⟨hge, hle, hlong⟩ := hhigh
    split at h
    · rename_i hnone
      obtain ⟨rfl, rfl⟩ := Prod.mk.inj (Except.ok.inj h)
      exact .lone hhi hend fun t _ _ _ ht => by simp [hnone] at ht
    · rename_i t ht
      split at h
      · cases h
      rename_i lo r' hlo
      split_ifs at h with hlow
      · obtain ⟨rfl, rfl⟩ := Prod.mk.inj (Except.ok.inj h)
        refine .pair hhi ⟨hge, hle⟩ ht hlo hlow fun hnil => ?_
        have hlen := afterBackslashU?_length ht
        have hlen' := hex4?_length hlo
        rw [hnil, List.length_nil] at hlen'
        omega
      · obtain ⟨rfl, rfl⟩ := Prod.mk.inj (Except.ok.inj h)
        refine .lone hhi hend fun t' _ _ _ ht' => ?_
        obtain rfl := Option.some.inj (ht.symm.trans ht')
        exact ⟨lo, r', hlo, hlow⟩
  · -- no high surrogate, or the text ends too soon for a second escape
    obtain ⟨rfl, rfl⟩ := Prod.mk.inj (Except.ok.inj h)
    exact .lone hhi hend fun t hge hle hlong _ => absurd ⟨hge, hle, hlong⟩ hhigh

lemma ReadsUnit.scanned {s r : PyStr} {x : ℕ} (h : ReadsUnit s x r) :
    scanUnicodeEscape s = .ok (x, r) := by
  cases h with
  | lone hhi hne hlone =>
      rw [scanUnicodeEscape, hhi]
      dsimp only
      rw [if_neg hne]
      split_ifs with hhigh
      · obtain ⟨hge, hle, hlong⟩ := hhigh
        cases hu : afterBackslashU? r with
        | none => rfl
        | some t =>
            obtain ⟨lo, t', hlo, hlow⟩ := hlone t hge hle hlong hu
            dsimp only
            rw [hlo]
            dsimp only
            rw [if_neg hlow]
      · rfl
  | @pair hi lo s' t r hhi hhigh hu hlo hlow hne =>
      have hlen := afterBackslashU?_length hu
      have hlen' := hex4?_length hlo
      have hpos := List.length_pos_of_ne_nil hne
      have hsome : s' ≠ [] := List.ne_nil_of_length_pos (by omega)
      rw [scanUnicodeEscape, hhi]
      dsimp only
      rw [if_neg hsome, if_pos ⟨hhigh.1, hhigh.2, by omega⟩, hu]
      dsimp only
      rw [hlo]
      dsimp only
      rw [if_pos hlow]

lemma scanUnicodeEscape_length {s r : PyStr} {x : ℕ}
    (h : scanUnicodeEscape s = .ok (x, r)) : r.length < s.length := by
  cases readsUnit_of_scan h with
  | lone hhi _ _ =>
      have := hex4?_length hhi
      omega
  | pair hhi _ hu hlo _ _ =>
      have := hex4?_length hhi
      have := afterBackslashU?_length hu
      have := hex4?_length hlo
      omega

lemma scanEscape_length {s r : PyStr} {x : ℕ} (h : scanEscape s = .ok (x, r)) :
    r.length < s.length := by
  cases s with
  | nil => simp [scanEscape] at h
  | cons c s =>
      rw [scanEscape] at h
      split_ifs at h
      · have := scanUnicodeEscape_length h
        simp only [List.length_cons]
        omega
      · split at h
        · simp at h
        · simp only [Except.ok.injEq, Prod.mk.injEq] at h
          rw [← h.2]
          simp

lemma scanStringFrom_length {n : ℕ} {s x r : PyStr} (h : scanStringFrom n s = .ok (x, r)) :
    r.length < s.length := by
  induction n generalizing s x r with
  | zero => simp [scanStringFrom] at h
  | succ n ih =>
      cases s with
      | nil => simp [scanStringFrom] at h
      | cons c s =>
          rw [scanStringFrom] at h
          split_ifs at h
          · simp only [Except.ok.injEq, Prod.mk.injEq] at h
            rw [← h.2]
            simp
          · obtain ⟨⟨y, s'⟩, h1, h⟩ := bind_eq_ok.mp h
            obtain ⟨⟨ys, s''⟩, h2, h⟩ := bind_eq_ok.mp h
            have hlt := scanEscape_length h1
            have hlt' := ih h2
            obtain ⟨-, rfl⟩ : y :: ys = x ∧ s'' = r := by simpa using h
            simp only [List.length_cons]
            omega
          · obtain ⟨⟨ys, s''⟩, h2, h⟩ := bind_eq_ok.mp h
            have hlt' := ih h2
            obtain ⟨-, rfl⟩ : c :: ys = x ∧ s'' = r := by simpa using h
            simp only [List.length_cons]
            omega

lemma scanStringFrom_fuel {n m : ℕ} {s : PyStr} (hn : s.length ≤ n) (hm : s.length ≤ m) :
    scanStringFrom n s = scanStringFrom m s := by
  induction n generalizing m s with
  | zero =>
      obtain rfl : s = [] := List.eq_nil_of_length_eq_zero (by omega)
      cases m <;> rfl
  | succ n ih =>
      cases s with
      | nil => cases m <;> rfl
      | cons c s =>
          obtain ⟨m, rfl⟩ : ∃ k, m = k + 1 := ⟨m - 1, by simp only [List.length_cons] at hm; omega⟩
          simp only [List.length_cons] at hn hm
          rw [scanStringFrom, scanStringFrom, ih (m := m) (s := s) (by omega) (by omega)]
          split_ifs
          · rfl
          · cases he : scanEscape s with
            | error e => rfl
            | ok p =>
                obtain ⟨y, s'⟩ := p
                have := scanEscape_length he
                simp only [bind, Except.bind]
                rw [ih (m := m) (s := s') (by omega) (by omega)]
          · rfl
          · rfl

lemma scanStringFrom_mono {n m : ℕ} (hnm : n ≤ m) {s x r : PyStr}
    (h : scanStringFrom n s = .ok (x, r)) : scanStringFrom m s = .ok (x, r) := by
  induction n generalizing m s x r with
  | zero => simp [scanStringFrom] at h
  | succ n ih =>
      obtain ⟨m, rfl⟩ : ∃ k, m = k + 1 := ⟨m - 1, by omega⟩
      cases s with
      | nil => simp [scanStringFrom] at h
      | cons c s =>
          rw [scanStringFrom] at h ⊢
          split_ifs at h ⊢
          · exact h
          · obtain ⟨⟨y, s'⟩, h1, h2⟩ := bind_eq_ok.mp h
            obtain ⟨⟨ys, s''⟩, h3, h4⟩ := bind_eq_ok.mp h2
            exact bind_eq_ok.mpr ⟨_, h1, bind_eq_ok.mpr ⟨_, ih (by omega) h3, h4⟩⟩
          · obtain ⟨⟨ys, s''⟩, h3, h4⟩ := bind_eq_ok.mp h
            exact bind_eq_ok.mpr ⟨_, ih (by omega) h3, h4⟩

/-- What is read with some fuel is read with the fuel `scanString` takes. -/
lemma scanString_of_scanStringFrom {n : ℕ} {s x r : PyStr}
    (h : scanStringFrom n s = .ok (x, r)) : scanString s = .ok (x, r) := by
  rw [scanString]
  by_cases hn : s.length ≤ n
  · rw [scanStringFrom_fuel (Nat.le_refl _) hn, h]
  · exact scanStringFrom_mono (Nat.le_of_not_le hn) h

lemma scanString_length {s x r : PyStr} (h : scanString s = .ok (x, r)) : r.length < s.length :=
  scanStringFrom_length h

lemma scanNat_length {s x r : PyStr} (h : scanNat s = some (x, r)) :
    r.length < s.length := by
  cases s with
  | nil => simp [scanNat] at h
  | cons c s =>
      have hle : (s.dropWhile isDigit).length ≤ s.length := (List.dropWhile_sublist _).length_le
      rw [scanNat] at h
      split_ifs at h
      · obtain ⟨-, rfl⟩ : [c] = x ∧ s = r := by simpa using h
        simp
      · obtain ⟨-, rfl⟩ : c :: s.takeWhile isDigit = x ∧ s.dropWhile isDigit = r := by
          simpa using h
        simp only [List.length_cons]
        omega

lemma scanInt_length {s x r : PyStr} (h : scanInt s = some (x, r)) : r.length < s.length := by
  cases s with
  | nil => simp [scanInt] at h
  | cons c s =>
      rw [scanInt] at h
      split_ifs at h
      · obtain ⟨⟨y, r'⟩, hy, he⟩ := Option.map_eq_some_iff.mp h
        obtain ⟨-, rfl⟩ : c :: y = x ∧ r' = r := by simpa using he
        have := scanNat_length hy
        simp only [List.length_cons]
        omega
      · exact scanNat_length h

lemma scanDigits_length {s x r : PyStr} (h : scanDigits s = some (x, r)) :
    r.length ≤ s.length := by
  unfold scanDigits at h
  split_ifs at h
  obtain ⟨-, rfl⟩ : s.takeWhile isDigit = x ∧ s.dropWhile isDigit = r := by simpa using h
  exact (List.dropWhile_sublist _).length_le

lemma scanSignedDigits_length {s x r : PyStr} (h : scanSignedDigits s = some (x, r)) :
    r.length ≤ s.length := by
  cases s with
  | nil => simp [scanSignedDigits] at h
  | cons c s =>
      rw [scanSignedDigits] at h
      split_ifs at h
      · obtain ⟨⟨y, r'⟩, hy, he⟩ := Option.map_eq_some_iff.mp h
        obtain ⟨-, rfl⟩ : c :: y = x ∧ r' = r := by simpa using he
        have := scanDigits_length hy
        simp only [List.length_cons]
        omega
      · exact scanDigits_length h

lemma length_scanPart_le (mark : ℕ → Bool) {scan : PyStr → Option (PyStr × PyStr)}
    (hscan : ∀ s x r, scan s = some (x, r) → r.length ≤ s.length) (s : PyStr) :
    (scanPart mark scan s).2.length ≤ s.length := by
  cases s with
  | nil => exact Nat.le_refl _
  | cons c s =>
      rw [scanPart]
      split_ifs
      · split
        · rename_i digits r hr
          exact Nat.le_succ_of_le (hscan _ _ _ hr)
        · exact Nat.le_refl _
      · exact Nat.le_refl _

lemma scanNumber_length {s r : PyStr} {v : Json} (h : scanNumber s = some (.ok (v, r))) :
    r.length < s.length := by
  unfold scanNumber at h
  split at h
  · simp at h
  · rename_i i s' hi
    have h1 := scanInt_length hi
    have h2 := length_scanPart_le (fun c => c = 0x2e) (fun _ _ _ => scanDigits_length) s'
    have h3 := length_scanPart_le (fun c => c = 0x65 ∨ c = 0x45)
      (fun _ _ _ => scanSignedDigits_length) (scanFrac s').2
    dsimp only at h
    rw [← scanFrac] at h2
    rw [← scanExp] at h3
    split_ifs at h
    · simp at h
    · simp only [Option.some.injEq, Except.ok.injEq, Prod.mk.injEq] at h
      rw [← h.2]
      omega
    · simp only [Option.some.injEq, Except.ok.injEq, Prod.mk.injEq] at h
      rw [← h.2]
      omega

lemma scanLiteral_length {s r : PyStr} {v : Json} (h : scanLiteral s = some (v, r)) :
    r.length < s.length := by
  obtain ⟨p, hp, he⟩ := Option.map_eq_some_iff.mp h
  have hpre : p.1 <+: s := by simpa using List.find?_some hp
  have hpos : 0 < p.1.length := by
    have hmem := List.mem_of_find?_eq_some hp
    have hall : ∀ q ∈ literals.map fun q => q.1.length, 0 < q := by decide
    exact hall _ (List.mem_map_of_mem hmem)
  obtain ⟨-, rfl⟩ : p.2 = v ∧ s.drop p.1.length = r := by simpa using he
  have := hpre.length_le
  rw [List.length_drop]
  omega

/-- A scanner that takes at least one character for a value. -/
def Consumes (scan : PyStr → Except JsonError (Json × PyStr)) : Prop :=
  ∀ s v r, scan s = .ok (v, r) → r.length < s.length

variable {scan : PyStr → Except JsonError (Json × PyStr)}

lemma scanElements_length (hscan : Consumes scan) {n : ℕ} {s r : PyStr} {vs : List Json}
    (h : scanElements scan n s = .ok (vs, r)) : r.length < s.length := by
  induction n generalizing s vs r with
  | zero => simp [scanElements] at h
  | succ n ih =>
      rw [scanElements] at h
      obtain ⟨⟨v, s'⟩, hv, h⟩ := bind_eq_ok.mp h
      have h1 := hscan _ _ _ hv
      have h2 := length_skipSpace_le s'
      dsimp only at h
      split at h
      · rename_i c s'' hs
        rw [hs, List.length_cons] at h2
        split_ifs at h
        · obtain ⟨-, rfl⟩ : [v] = vs ∧ s'' = r := by simpa using h
          omega
        · obtain ⟨⟨us, u⟩, hu, h⟩ := bind_eq_ok.mp h
          have h3 := ih hu
          have h4 := length_skipSpace_le s''
          obtain ⟨-, rfl⟩ : v :: us = vs ∧ u = r := by simpa using h
          omega
      · simp at h

/-- More fuel than the text has characters changes nothing. -/
theorem scanElements_fuel (hscan : Consumes scan) {n m : ℕ} {s : PyStr} (hn : s.length < n)
    (hm : s.length < m) : scanElements scan n s = scanElements scan m s := by
  induction n generalizing m s with
  | zero => omega
  | succ n ih =>
      obtain ⟨m, rfl⟩ : ∃ k, m = k + 1 := ⟨m - 1, by omega⟩
      rw [scanElements, scanElements]
      cases hv : scan s with
      | error e => rfl
      | ok p =>
          obtain ⟨v, s'⟩ := p
          have h1 := hscan _ _ _ hv
          have h2 := length_skipSpace_le s'
          simp only [bind, Except.bind]
          split
          · rename_i c s'' hs
            have h3 := length_skipSpace_le s''
            rw [hs, List.length_cons] at h2
            rw [ih (m := m) (s := skipSpace s'') (by omega) (by omega)]
          · rfl

lemma scanArray_length (hscan : Consumes scan) {s r : PyStr} {v : Json}
    (h : scanArray scan s = .ok (v, r)) : r.length ≤ s.length := by
  have h1 := length_skipSpace_le s
  unfold scanArray at h
  split_ifs at h
  · obtain ⟨-, rfl⟩ : Json.arr [] = v ∧ (skipSpace s).tail = r := by simpa using h
    rw [List.length_tail]
    omega
  · obtain ⟨⟨vs, r'⟩, hvs, h⟩ := bind_eq_ok.mp h
    have h2 := scanElements_length hscan hvs
    obtain ⟨-, rfl⟩ : Json.arr vs = v ∧ r' = r := by simpa using h
    omega

lemma scanMembers_length (hscan : Consumes scan) {n : ℕ} {s r : PyStr}
    {ms : List (PyStr × Json)} (h : scanMembers scan n s = .ok (ms, r)) :
    r.length < s.length := by
  induction n generalizing s ms r with
  | zero => simp [scanMembers] at h
  | succ n ih =>
      cases s with
      | nil => simp [scanMembers] at h
      | cons q s =>
          rw [scanMembers] at h
          split_ifs at h
          obtain ⟨⟨name, s1⟩, hname, h⟩ := bind_eq_ok.mp h
          have l1 := scanString_length hname
          have l2 := length_skipSpace_le s1
          rw [List.length_cons]
          dsimp only at h
          split at h
          · rename_i c s2 hs2
            rw [hs2, List.length_cons] at l2
            split_ifs at h
            obtain ⟨⟨v, s3⟩, hv, h⟩ := bind_eq_ok.mp h
            have l3 := hscan _ _ _ hv
            have l4 := length_skipSpace_le s2
            have l5 := length_skipSpace_le s3
            dsimp only at h
            split at h
            · rename_i c' s4 hs4
              rw [hs4, List.length_cons] at l5
              split_ifs at h
              · obtain ⟨-, rfl⟩ : [(name, v)] = ms ∧ s4 = r := by simpa using h
                omega
              · obtain ⟨⟨us, u⟩, hu, h⟩ := bind_eq_ok.mp h
                have l6 := ih hu
                have l7 := length_skipSpace_le s4
                obtain ⟨-, rfl⟩ : (name, v) :: us = ms ∧ u = r := by simpa using h
                omega
            · simp at h
          · simp at h

/-- More fuel than the text has characters changes nothing. -/
theorem scanMembers_fuel (hscan : Consumes scan) {n m : ℕ} {s : PyStr} (hn : s.length < n)
    (hm : s.length < m) : scanMembers scan n s = scanMembers scan m s := by
  induction n generalizing m s with
  | zero => omega
  | succ n ih =>
      obtain ⟨m, rfl⟩ : ∃ k, m = k + 1 := ⟨m - 1, by omega⟩
      cases s with
      | nil => rfl
      | cons q s =>
          rw [List.length_cons] at hn hm
          rw [scanMembers, scanMembers]
          split_ifs
          -- the name, the colon and the value each take a character
          · cases hname : scanString s with
            | error e => rfl
            | ok p =>
                obtain ⟨name, s1⟩ := p
                have l1 := scanString_length hname
                have l2 := length_skipSpace_le s1
                simp only [bind, Except.bind]
                split
                · rename_i c s2 hs2
                  rw [hs2, List.length_cons] at l2
                  split_ifs
                  · cases hv : scan (skipSpace s2) with
                    | error e => rfl
                    | ok p =>
                        obtain ⟨v, s3⟩ := p
                        have l3 := hscan _ _ _ hv
                        have l4 := length_skipSpace_le s2
                        have l5 := length_skipSpace_le s3
                        dsimp only
                        split
                        · rename_i c' s4 hs4
                          have l6 := length_skipSpace_le s4
                          rw [hs4, List.length_cons] at l5
                          -- so the members that follow have fuel enough
                          rw [ih (m := m) (s := skipSpace s4) (by omega) (by omega)]
                        · rfl
                  · rfl
                · rfl
          · rfl

lemma scanObject_length (hscan : Consumes scan) {s r : PyStr} {v : Json}
    (h : scanObject scan s = .ok (v, r)) : r.length ≤ s.length := by
  have h1 := length_skipSpace_le s
  unfold scanObject at h
  split_ifs at h
  · obtain ⟨-, rfl⟩ : Json.obj [] = v ∧ (skipSpace s).tail = r := by simpa using h
    rw [List.length_tail]
    omega
  · obtain ⟨⟨ms, r'⟩, hms, h⟩ := bind_eq_ok.mp h
    have h2 := scanMembers_length hscan hms
    obtain ⟨-, rfl⟩ : Json.obj (dictOfPairs ms) = v ∧ r' = r := by simpa using h
    omega

lemma scanOnce_cons (depth c : ℕ) (s : PyStr) :
    scanOnce depth (c :: s) =
      if c = 0x22 then scanString s >>= fun p => return (.str p.1, p.2)
      else if c = 0x7b then depth.casesOn (.error .recursion) fun d => scanObject (scanOnce d) s
      else if c = 0x5b then depth.casesOn (.error .recursion) fun d => scanArray (scanOnce d) s
      else
        match scanLiteral (c :: s) with
        | some r => .ok r
        | none => (scanNumber (c :: s)).getD (.error (.decode "Expecting value")) := by
  cases depth <;> rfl

/-- One call takes at least one character if the calls for the values inside
do. -/
lemma scanOnce_length_of {depth : ℕ} (ih : ∀ d, depth = d + 1 → Consumes (scanOnce d)) :
    Consumes (scanOnce depth) := by
  intro s v r h
  cases s with
  | nil => cases depth <;> simp [scanOnce] at h
  | cons c s =>
      rw [scanOnce_cons] at h
      rw [List.length_cons]
      split_ifs at h
      · obtain ⟨⟨x, r'⟩, hx, h⟩ := bind_eq_ok.mp h
        have := scanString_length hx
        obtain ⟨-, rfl⟩ : Json.str x = v ∧ r' = r := by simpa using h
        omega
      · cases depth with
        | zero => simp at h
        | succ d => exact Nat.lt_succ_of_le (scanObject_length (ih d rfl) h)
      · cases depth with
        | zero => simp at h
        | succ d => exact Nat.lt_succ_of_le (scanArray_length (ih d rfl) h)
      · split at h
        · rename_i p hp
          obtain rfl : p = (v, r) := by simpa using h
          exact scanLiteral_length hp
        · cases hn : scanNumber (c :: s) with
          | none => simp [hn] at h
          | some x =>
              obtain rfl : x = .ok (v, r) := by simpa [hn] using h
              exact scanNumber_length hn

/-- A value takes at least one character. -/
theorem scanOnce_length (depth : ℕ) : Consumes (scanOnce depth) := by
  induction depth with
  | zero => exact scanOnce_length_of fun d hd => absurd hd (by simp)
  | succ d ih =>
      refine scanOnce_length_of fun e he => ?_
      obtain rfl : d = e := by omega
      exact ih

end Json
