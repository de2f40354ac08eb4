import CodexResetProxy.Library.Binary64
import CodexResetProxy.Library.Json

/-!
The grammar of JSON (RFC 8259), with the values of its texts.

The values are those of software that has binary64 for numbers: an integer is exact, a
number with a fraction or an exponent is rounded. An object is a list of members, each
name with the last of its values, and a string is a list of code points, an escaped
surrogate pair one of them.

* `IsNumber`, `IsString`, `Separated`, `IsMember`: the productions, as relations of a text
  and its value.
* `IsValue`: a value nested no deeper than a bound, over any grammar of numbers; `IsText`: a
  text with blanks around it; `IsJson`: RFC 8259's own.
* `IsValue.mono`: what more numbers and a larger bound keep.
* `Bounded`: what holds of every value of a text.
-/

namespace Rfc8259

open PyStr Json

/-! ### Values -/

/-- The value of a number. -/
inductive Number where
  | int (n : ℤ)
  /-- The sign, and the magnitude if it is in the range of binary64. -/
  | decimal (negative : Bool) (magnitude : Option ℚ)
  /-- A literal such as `NaN`, which RFC 8259 does not have. -/
  | literal (text : PyStr)
  deriving DecidableEq

inductive Value where
  | null
  | bool (b : Bool)
  | number (n : Number)
  | string (s : PyStr)
  | array (elements : List Value)
  | object (members : List (PyStr × Value))

/-- Each name with the last of its values. -/
def lastValues {ν : Type} (members : List (PyStr × ν)) : List (PyStr × ν) :=
  members.foldl (fun d p => d.upsert p.1 p.2) []

/-! ### Numbers -/

/-- `1*DIGIT`. -/
def IsDigits (s : PyStr) : Prop := s ≠ [] ∧ ∀ c ∈ s, isDigit c

/-- `zero / ( digit1-9 *DIGIT )`. -/
def IsNat (s : PyStr) : Prop := s = [0x30] ∨ IsDigits s ∧ s.head? ≠ some 0x30

/-- `[ minus ] int`. -/
def IsInt (s : PyStr) : Prop := IsNat s ∨ ∃ t, s = 0x2d :: t ∧ IsNat t

/-- `frac`. -/
def IsFrac (s : PyStr) : Prop := ∃ t, s = 0x2e :: t ∧ IsDigits t

/-- `[ minus / plus ] 1*DIGIT`. -/
def IsSignedDigits (s : PyStr) : Prop :=
  IsDigits s ∨ ∃ sign t, (sign = 0x2b ∨ sign = 0x2d) ∧ s = sign :: t ∧ IsDigits t

/-- `exp`. -/
def IsExp (s : PyStr) : Prop :=
  ∃ mark t, (mark = 0x65 ∨ mark = 0x45) ∧ s = mark :: t ∧ IsSignedDigits t

/-- The power of ten that `exp` stands for. -/
def exponent : PyStr → ℤ
  | _ :: 0x2b :: s => intOfLiteral s
  | _ :: s => intOfLiteral s
  | [] => 0

/-- The magnitude of a number, of its three parts. -/
def magnitude (i f e : PyStr) : ℚ :=
  natOfDigits ((i ++ f).filter isDigit) * 10 ^ (exponent e - (f.filter isDigit).length)

/-- The value of a number with a fraction or an exponent. -/
def decimalOf (i f e : PyStr) : Number :=
  .decimal (i.head? = some 0x2d) (Binary64.nearest (magnitude i f e))

/-- `[ minus ] int [ frac ] [ exp ]`. -/
inductive IsNumber : PyStr → Number → Prop
  | int {i : PyStr} (hi : IsInt i) : IsNumber i (.int (intOfLiteral i))
  | decimal {i f e : PyStr} (hi : IsInt i) (hf : f = [] ∨ IsFrac f) (he : e = [] ∨ IsExp e)
      (hne : f ≠ [] ∨ e ≠ []) : IsNumber (i ++ (f ++ e)) (decimalOf i f e)

/-! ### Strings -/

/-- The code unit of an escape `\uXXXX`, and the text after it. -/
def unicodeEscape? (s : PyStr) : Option (ℕ × PyStr) := afterBackslashU? s >>= hex4?

/-- A high surrogate. -/
def IsHigh (u : ℕ) : Prop := 0xd800 ≤ u ∧ u ≤ 0xdbff

/-- A low surrogate. -/
def IsLow (u : ℕ) : Prop := 0xdc00 ≤ u ∧ u ≤ 0xdfff

/-- The code point of a surrogate pair. -/
def joinPair (hi lo : ℕ) : ℕ := 0x10000 + ((hi - 0xd800) * 0x400 + (lo - 0xdc00))

lemma joinPair_bounds {hi lo : ℕ} (hhigh : IsHigh hi) (hlow : IsLow lo) :
    0x10000 ≤ joinPair hi lo ∧ joinPair hi lo ≤ 0x10ffff := by
  obtain ⟨hmin, hmax⟩ := hhigh
  obtain ⟨hmin', hmax'⟩ := hlow
  unfold joinPair
  omega

/-- `*char`: the characters between the quotation marks. -/
inductive IsChars : PyStr → PyStr → Prop
  | nil : IsChars [] []
  | unescaped {c : ℕ} {t s : PyStr} (hvalid : c.isValidChar) (hlow : 0x20 ≤ c) (hquote : c ≠ 0x22)
      (hescape : c ≠ 0x5c) (h : IsChars t s) : IsChars (c :: t) (c :: s)
  | escape {e c : ℕ} {t s : PyStr} (he : escape? e = some c) (h : IsChars t s) :
      IsChars (0x5c :: e :: t) (c :: s)
  /-- A code unit that is not the first of a surrogate pair. -/
  | unit {u : ℕ} {r t s : PyStr} (hu : unicodeEscape? r = some (u, t))
      (hpair : ∀ lo t', IsHigh u → unicodeEscape? t = some (lo, t') → ¬IsLow lo)
      (h : IsChars t s) : IsChars r (u :: s)
  | pair {hi lo : ℕ} {r t' t s : PyStr} (hhi : unicodeEscape? r = some (hi, t')) (hhigh : IsHigh hi)
      (hlo : unicodeEscape? t' = some (lo, t)) (hlow : IsLow lo) (h : IsChars t s) :
      IsChars r (joinPair hi lo :: s)

/-- `quotation-mark *char quotation-mark`. -/
def IsString (t s : PyStr) : Prop := ∃ u, t = 0x22 :: (u ++ [0x22]) ∧ IsChars u s

/-! ### Containers -/

/-- `ws`. -/
def IsWs (s : PyStr) : Prop := ∀ c ∈ s, isSpace c

/-- One item or more, separated by commas, with blanks around each. -/
inductive Separated {β : Type} (Item : PyStr → β → Prop) : PyStr → List β → Prop
  | single {a t b : PyStr} {x : β} (ha : IsWs a) (h : Item t x) (hb : IsWs b) :
      Separated Item (a ++ (t ++ b)) [x]
  | cons {a t b u : PyStr} {x : β} {xs : List β} (ha : IsWs a) (h : Item t x) (hb : IsWs b)
      (hu : Separated Item u xs) : Separated Item (a ++ (t ++ (b ++ 0x2c :: u))) (x :: xs)

/-- Blanks in front of items. -/
lemma Separated.ws_append {β : Type} {Item : PyStr → β → Prop} {w u : PyStr} {xs : List β}
    (hw : IsWs w) (h : Separated Item u xs) :
    Separated Item (w ++ u) xs := by
  have happend : ∀ {a : PyStr}, IsWs a → IsWs (w ++ a) := fun ha c hc =>
    (List.mem_append.mp hc).elim (hw c) (ha c)
  cases h with
  | single ha hx hb =>
      rw [← List.append_assoc]
      exact .single (happend ha) hx hb
  | cons ha hx hb hu =>
      rw [← List.append_assoc]
      exact .cons (happend ha) hx hb hu

/-- None, or some. -/
def Items {β : Type} (Item : PyStr → β → Prop) (t : PyStr) (xs : List β) : Prop :=
  IsWs t ∧ xs = [] ∨ Separated Item t xs

/-- `string name-separator value`, without the blanks around it. -/
def IsMember (Val : PyStr → Value → Prop) (t : PyStr) (p : PyStr × Value) : Prop :=
  ∃ n b c u, t = n ++ (b ++ 0x3a :: (c ++ u)) ∧ IsString n p.1 ∧ IsWs b ∧ IsWs c ∧ Val u p.2

variable (Num : PyStr → Number → Prop)

/-- `value`, with no more than so many containers in each other. -/
def IsValue : ℕ → PyStr → Value → Prop
  | _, t, .null => t = py "null"
  | _, t, .bool true => t = py "true"
  | _, t, .bool false => t = py "false"
  | _, t, .number n => Num t n
  | _, t, .string s => IsString t s
  | d + 1, t, .array elements =>
      ∃ u, t = 0x5b :: (u ++ [0x5d]) ∧ Items (IsValue d) u elements
  | d + 1, t, .object members =>
      ∃ u ms, t = 0x7b :: (u ++ [0x7d]) ∧ Items (IsMember (IsValue d)) u ms ∧
        members = lastValues ms
  | 0, _, .array _ => False
  | 0, _, .object _ => False

variable {Num} in
lemma isValue_number {d : ℕ} {t : PyStr} {n : Number} :
    IsValue Num d t (.number n) ↔ Num t n := by cases d <;> rfl

variable {Num} in
lemma isValue_string {d : ℕ} {t s : PyStr} : IsValue Num d t (.string s) ↔ IsString t s := by
  cases d <;> rfl

variable {Num} in
lemma isValue_null {d : ℕ} {t : PyStr} : IsValue Num d t .null ↔ t = py "null" := by
  cases d <;> rfl

variable {Num} in
lemma isValue_bool {d : ℕ} {t : PyStr} {b : Bool} :
    IsValue Num d t (.bool b) ↔ t = if b then py "true" else py "false" := by
  cases d <;> cases b <;> rfl

variable {Num} in
lemma isValue_array {d : ℕ} {t : PyStr} {elements : List Value} :
    IsValue Num d t (.array elements) ↔
      ∃ e u, d = e + 1 ∧ t = 0x5b :: (u ++ [0x5d]) ∧ Items (IsValue Num e) u elements := by
  cases d with
  | zero => exact ⟨False.elim, fun ⟨e, _, he, _⟩ => absurd he e.succ_ne_zero.symm⟩
  | succ d =>
      refine ⟨fun ⟨u, ht, hu⟩ => ⟨d, u, rfl, ht, hu⟩, ?_⟩
      rintro ⟨e, u, he, ht, hu⟩
      obtain rfl := Nat.succ.inj he
      exact ⟨u, ht, hu⟩

variable {Num} in
lemma isValue_object {d : ℕ} {t : PyStr} {members : List (PyStr × Value)} :
    IsValue Num d t (.object members) ↔
      ∃ e u ms, d = e + 1 ∧ t = 0x7b :: (u ++ [0x7d]) ∧ Items (IsMember (IsValue Num e)) u ms ∧
        members = lastValues ms := by
  cases d with
  | zero => exact ⟨False.elim, fun ⟨e, _, _, he, _⟩ => absurd he e.succ_ne_zero.symm⟩
  | succ d =>
      refine ⟨fun ⟨u, ms, ht, hu⟩ => ⟨d, u, ms, rfl, ht, hu⟩, ?_⟩
      rintro ⟨e, u, ms, he, ht, hu⟩
      obtain rfl := Nat.succ.inj he
      exact ⟨u, ms, ht, hu⟩

/-- `JSON-text`. -/
def IsText (t : PyStr) (v : Value) : Prop :=
  ∃ d a u b, t = a ++ (u ++ b) ∧ IsWs a ∧ IsValue Num d u v ∧ IsWs b

/-- A JSON text and its value. -/
def IsJson : PyStr → Value → Prop := IsText IsNumber

/-! ### More numbers, and a larger bound -/

section Mono

variable {β : Type} {Item Item' : PyStr → β → Prop} {Val Val' : PyStr → Value → Prop}
  {Num Num' : PyStr → Number → Prop} {t : PyStr} {v : Value} {d d' : ℕ}

lemma Separated.mono (h : ∀ t x, Item t x → Item' t x) {xs : List β} (ht : Separated Item t xs) :
    Separated Item' t xs := by
  induction ht with
  | single ha hx hb => exact .single ha (h _ _ hx) hb
  | cons ha hx hb _ ih => exact .cons ha (h _ _ hx) hb ih

lemma Items.mono (h : ∀ t x, Item t x → Item' t x) {xs : List β} (ht : Items Item t xs) :
    Items Item' t xs :=
  ht.imp_right (Separated.mono h)

lemma IsMember.mono (h : ∀ t v, Val t v → Val' t v) {p : PyStr × Value} (hp : IsMember Val t p) :
    IsMember Val' t p := by
  obtain ⟨n, b, c, u, rfl, hn, hb, hc, hu⟩ := hp
  exact ⟨n, b, c, u, rfl, hn, hb, hc, h _ _ hu⟩

/-- **A larger grammar** has the values of a smaller one. -/
theorem IsValue.mono (hnum : ∀ t n, Num t n → Num' t n) (hd : d ≤ d') (h : IsValue Num d t v) :
    IsValue Num' d' t v := by
  induction d using Nat.strong_induction_on generalizing d' t v with
  | _ d ih =>
      cases v with
      | null => exact isValue_null.mpr (isValue_null.mp h)
      | bool b => exact isValue_bool.mpr (isValue_bool.mp h)
      | number n => exact isValue_number.mpr (hnum _ _ (isValue_number.mp h))
      | string s => exact isValue_string.mpr (isValue_string.mp h)
      | array elements =>
          obtain ⟨e, u, rfl, rfl, hu⟩ := isValue_array.mp h
          obtain ⟨e', rfl⟩ : ∃ e', d' = e' + 1 := ⟨d' - 1, by omega⟩
          have hinner : ∀ t v, IsValue Num e t v → IsValue Num' e' t v := fun t v =>
            ih e (Nat.lt_succ_self e) (Nat.le_of_succ_le_succ hd)
          exact isValue_array.mpr ⟨e', u, rfl, rfl, hu.mono hinner⟩
      | object members =>
          obtain ⟨e, u, ms, rfl, rfl, hu, rfl⟩ := isValue_object.mp h
          obtain ⟨e', rfl⟩ : ∃ e', d' = e' + 1 := ⟨d' - 1, by omega⟩
          have hinner : ∀ t v, IsValue Num e t v → IsValue Num' e' t v := fun t v =>
            ih e (Nat.lt_succ_self e) (Nat.le_of_succ_le_succ hd)
          exact isValue_object.mpr
            ⟨e', u, ms, rfl, rfl, hu.mono fun _ _ => IsMember.mono hinner, rfl⟩

lemma IsText.mono (hnum : ∀ t n, Num t n → Num' t n) (h : IsText Num t v) : IsText Num' t v := by
  obtain ⟨d, a, u, b, rfl, ha, hu, hb⟩ := h
  exact ⟨d, a, u, b, rfl, ha, hu.mono hnum le_rfl, hb⟩

end Mono

/-! ### Escapes -/

/-- Four hexadecimal digits are the same in front of any text. -/
lemma hex4?_split {s r : PyStr} {n : ℕ} (h : hex4? s = some (n, r)) :
    n < 0x10000 ∧ ∃ digits, s = digits ++ r ∧ ∀ r', hex4? (digits ++ r') = some (n, r') := by
  have hlt : ∀ {c k : ℕ}, hexDigit? c = some k → k < 16 := by
    intro c k hk
    rw [hexDigit?] at hk
    split_ifs at hk <;> simp only [Option.some.injEq] at hk <;> omega
  unfold hex4? at h
  split at h
  · rename_i a b c d s
    split at h
    · rename_i a' b' c' d' ha hb hc hd
      simp only [Option.some.injEq, Prod.mk.injEq] at h
      obtain ⟨rfl, rfl⟩ := h
      have hla := hlt ha
      have hlb := hlt hb
      have hlc := hlt hc
      have hld := hlt hd
      exact ⟨by omega, [a, b, c, d], rfl, fun r' => by simp [hex4?, ha, hb, hc, hd]⟩
    · simp at h
  · simp at h

lemma eq_of_afterBackslashU? {s t : PyStr} (h : afterBackslashU? s = some t) :
    s = 0x5c :: 0x75 :: t := by
  unfold afterBackslashU? at h
  split at h
  · split_ifs at h with hxy
    obtain rfl := Option.some.inj h
    rw [hxy.1, hxy.2]
  · simp at h

lemma unicodeEscape?_split {s r : PyStr} {n : ℕ} (h : unicodeEscape? s = some (n, r)) :
    n < 0x10000 ∧ ∃ digits, s = 0x5c :: 0x75 :: (digits ++ r) ∧
      ∀ r', hex4? (digits ++ r') = some (n, r') := by
  obtain ⟨t, ht, hr⟩ := Option.bind_eq_some_iff.mp h
  obtain ⟨hlt, digits, rfl, hdigits⟩ := hex4?_split hr
  exact ⟨hlt, digits, eq_of_afterBackslashU? ht, hdigits⟩

lemma unicodeEscape?_cons {s r : PyStr} {n : ℕ} (h : hex4? s = some (n, r)) :
    unicodeEscape? (0x5c :: 0x75 :: s) = some (n, r) := h

/-- An escape is the same with more text behind it. -/
lemma unicodeEscape?_append {s r : PyStr} {n : ℕ} (h : unicodeEscape? s = some (n, r))
    (r' : PyStr) : unicodeEscape? (s ++ r') = some (n, r ++ r') := by
  obtain ⟨-, digits, rfl, hdigits⟩ := unicodeEscape?_split h
  rw [List.cons_append, List.cons_append, List.append_assoc]
  exact unicodeEscape?_cons (hdigits (r ++ r'))

/-- Where characters go on with `\u`, they go on with an escape. -/
lemma IsChars.exists_unicodeEscape {t s r t' : PyStr} (h : IsChars t s)
    (ht : afterBackslashU? (t ++ 0x22 :: r) = some t') :
    ∃ u t'', unicodeEscape? t = some (u, t'') := by
  have heq := eq_of_afterBackslashU? ht
  cases h with
  | nil => simp at heq
  | unescaped _ _ _ hescape => exact absurd (List.cons.inj heq).1 hescape
  | escape he =>
      obtain ⟨-, heq⟩ := List.cons.inj heq
      obtain ⟨rfl, -⟩ := List.cons.inj heq
      simp [escape?] at he
  | unit hu => exact ⟨_, _, hu⟩
  | pair hhi => exact ⟨_, _, hhi⟩

/-! ### What holds of every value -/

/-- Code points without a surrogate pair. -/
def Joined : PyStr → Prop
  | [] => True
  | c :: s => c ≤ 0x10ffff ∧ (∀ b ∈ s.head?, ¬(IsHigh c ∧ IsLow b)) ∧ Joined s

/-- A string below the surrogates has no pair. -/
lemma joined_of_lt {s : PyStr} (h : ∀ c ∈ s, c < 0xd800) : Joined s := by
  induction s with
  | nil => trivial
  | cons c s ih =>
      obtain ⟨hc, hs⟩ := List.forall_mem_cons.mp h
      refine ⟨by omega, fun b _ hpair => ?_, ih hs⟩
      have := hpair.1.1
      omega

lemma escape?_lt {e c : ℕ} (h : escape? e = some c) : c < 0x80 := by
  grind [escape?]

/-- Where a string goes on with a low surrogate, its characters go on with an escape. -/
lemma IsChars.exists_low {t s : PyStr} {u : ℕ} (h : IsChars t s) (hs : s.head? = some u)
    (hlow : IsLow u) : ∃ t', unicodeEscape? t = some (u, t') := by
  obtain ⟨hmin, hmax⟩ := hlow
  cases h with
  | nil => simp at hs
  | unescaped hvalid =>
      obtain rfl := Option.some.inj hs
      rcases hvalid with hvalid | hvalid <;> omega
  | escape he =>
      obtain rfl := Option.some.inj hs
      have := escape?_lt he
      omega
  | unit hu =>
      obtain rfl := Option.some.inj hs
      exact ⟨_, hu⟩
  | pair _ hhigh _ hlow =>
      obtain rfl := Option.some.inj hs
      exact absurd ((joinPair_bounds hhigh hlow).1.trans hmax) (by decide)

/-- A string has no surrogate pair. -/
lemma IsChars.joined {t s : PyStr} (h : IsChars t s) : Joined s := by
  induction h with
  | nil => trivial
  | unescaped hvalid _ _ _ _ ih =>
      refine ⟨?_, fun b _ hpair => ?_, ih⟩
      · rcases hvalid with hvalid | hvalid <;> omega
      · obtain ⟨⟨hmin, hmax⟩, -⟩ := hpair
        rcases hvalid with hvalid | hvalid <;> omega
  | escape he _ ih =>
      have hlt := escape?_lt he
      refine ⟨by omega, fun b _ hpair => ?_, ih⟩
      have := hpair.1.1
      omega
  | @unit u r t s hu hpair ht ih =>
      have hlt := (unicodeEscape?_split hu).1
      refine ⟨by omega, fun b hb hboth => ?_, ih⟩
      obtain ⟨t', ht'⟩ := ht.exists_low hb hboth.2
      exact hpair b t' hboth.1 ht' hboth.2
  | pair hhi hhigh hlo hlow _ ih =>
      obtain ⟨hmin, hmax⟩ := joinPair_bounds hhigh hlow
      refine ⟨hmax, fun b _ hpair => ?_, ih⟩
      have := hpair.1.2
      omega

/-- What holds of the values of texts nested no deeper than a bound, whose numbers are of
some kind: the names of an object are different. -/
def Bounded (Ok : Number → Prop) : ℕ → Value → Prop
  | _, .null => True
  | _, .bool _ => True
  | _, .number n => Ok n
  | _, .string s => Joined s
  | d + 1, .array elements => ∀ v ∈ elements, Bounded Ok d v
  | d + 1, .object members =>
      (members.map Prod.fst).Nodup ∧ ∀ p ∈ members, Joined p.1 ∧ Bounded Ok d p.2
  | 0, .array _ => False
  | 0, .object _ => False

section Constructors

variable {Ok : Number → Prop} {d : ℕ}

lemma bounded_number {n : Number} : Bounded Ok d (.number n) ↔ Ok n := by
  cases d <;> rfl

lemma bounded_string {s : PyStr} : Bounded Ok d (.string s) ↔ Joined s := by
  cases d <;> rfl

lemma bounded_null : Bounded Ok d .null := by
  cases d <;> trivial

lemma bounded_bool (b : Bool) : Bounded Ok d (.bool b) := by
  cases d <;> trivial

lemma bounded_array {elements : List Value} :
    Bounded Ok d (.array elements) ↔ ∃ e, d = e + 1 ∧ ∀ v ∈ elements, Bounded Ok e v := by
  cases d with
  | zero => exact ⟨False.elim, fun ⟨e, he, _⟩ => absurd he e.succ_ne_zero.symm⟩
  | succ d =>
      refine ⟨fun h => ⟨d, rfl, h⟩, ?_⟩
      rintro ⟨e, he, h⟩
      obtain rfl := Nat.succ.inj he
      exact h

lemma bounded_object {members : List (PyStr × Value)} :
    Bounded Ok d (.object members) ↔ ∃ e, d = e + 1 ∧ (members.map Prod.fst).Nodup ∧
      ∀ p ∈ members, Joined p.1 ∧ Bounded Ok e p.2 := by
  cases d with
  | zero => exact ⟨False.elim, fun ⟨e, he, _⟩ => absurd he e.succ_ne_zero.symm⟩
  | succ d =>
      refine ⟨fun h => ⟨d, rfl, h⟩, ?_⟩
      rintro ⟨e, he, h⟩
      obtain rfl := Nat.succ.inj he
      exact h

end Constructors

lemma mem_upsert {ν : Type} {name : PyStr} {x : ν} {l : List (PyStr × ν)} {p : PyStr × ν}
    (h : p ∈ l.upsert name x) : p = (name, x) ∨ p ∈ l := by
  induction l with
  | nil => exact .inl (List.mem_singleton.mp h)
  | cons q l ih =>
      rw [List.upsert] at h
      split_ifs at h with hq
      · rcases List.mem_cons.mp h with rfl | h
        · exact .inl (by rw [hq])
        · exact .inr (List.mem_cons_of_mem _ h)
      · rcases List.mem_cons.mp h with rfl | h
        · exact .inr List.mem_cons_self
        · exact (ih h).imp_right (List.mem_cons_of_mem _)

/-- What is done to each value is done to the last ones. -/
lemma lastValues_map {ν μ : Type} (f : ν → μ) (ms : List (PyStr × ν)) :
    (lastValues ms).map (fun p => (p.1, f p.2)) = lastValues (ms.map fun p => (p.1, f p.2)) := by
  have hupsert : ∀ (name : PyStr) (x : ν) (l : List (PyStr × ν)),
      (l.upsert name x).map (fun p => (p.1, f p.2))
        = (l.map fun p => (p.1, f p.2)).upsert name (f x) := by
    intro name x l
    induction l with
    | nil => rfl
    | cons q l ih =>
        rw [List.upsert, List.map_cons, List.upsert]
        split_ifs
        · rfl
        · rw [List.map_cons, ih]
  have hfold : ∀ (ms l : List (PyStr × ν)),
      (ms.foldl (fun d p => d.upsert p.1 p.2) l).map (fun p => (p.1, f p.2))
        = (ms.map fun p => (p.1, f p.2)).foldl (fun d p => d.upsert p.1 p.2)
          (l.map fun p => (p.1, f p.2)) := by
    intro ms
    induction ms with
    | nil => exact fun l => rfl
    | cons q ms ih =>
        intro l
        rw [List.foldl_cons, ih, hupsert]
        rfl
  exact hfold ms []

/-- The members of an object are those of its text, and their names are different. -/
lemma lastValues_spec {ν : Type} (ms : List (PyStr × ν)) :
    ((lastValues ms).map Prod.fst).Nodup ∧ ∀ p ∈ lastValues ms, p ∈ ms := by
  have hfold : ∀ (ms l : List (PyStr × ν)), (l.map Prod.fst).Nodup →
      ((ms.foldl (fun d p => d.upsert p.1 p.2) l).map Prod.fst).Nodup ∧
        ∀ p ∈ ms.foldl (fun d p => d.upsert p.1 p.2) l, p ∈ l ∨ p ∈ ms := by
    intro ms
    induction ms with
    | nil => exact fun l hl => ⟨hl, fun p hp => .inl hp⟩
    | cons q ms ih =>
        intro l hl
        obtain ⟨hnodup, hmem⟩ := ih (l.upsert q.1 q.2) (List.nodup_upsert hl)
        refine ⟨hnodup, fun p hp => ?_⟩
        rcases hmem p hp with hp | hp
        · rcases mem_upsert hp with rfl | hp
          · exact .inr List.mem_cons_self
          · exact .inl hp
        · exact .inr (List.mem_cons_of_mem _ hp)
  obtain ⟨hnodup, hmem⟩ := hfold ms [] List.nodup_nil
  exact ⟨hnodup, fun p hp => (hmem p hp).resolve_left List.not_mem_nil⟩

section Bounded

variable {Num : PyStr → Number → Prop} {t : PyStr} {v : Value} {d : ℕ} {Ok : Number → Prop}

lemma Separated.exists_of_mem {β : Type} {Item : PyStr → β → Prop} {xs : List β} {x : β}
    (h : Separated Item t xs) (hx : x ∈ xs) : ∃ u, Item u x := by
  induction h with
  | single _ hitem =>
      obtain rfl := List.mem_singleton.mp hx
      exact ⟨_, hitem⟩
  | cons _ hitem _ _ ih =>
      rcases List.mem_cons.mp hx with rfl | hx
      · exact ⟨_, hitem⟩
      · exact ih hx

lemma Items.exists_of_mem {β : Type} {Item : PyStr → β → Prop} {xs : List β} {x : β}
    (h : Items Item t xs) (hx : x ∈ xs) : ∃ u, Item u x := by
  rcases h with ⟨-, rfl⟩ | h
  · exact absurd hx List.not_mem_nil
  · exact h.exists_of_mem hx

/-- **The value of a text** is made of strings without surrogate pairs, of the numbers of
the grammar and of objects whose names are different. -/
theorem IsValue.bounded (hnum : ∀ t n, Num t n → Ok n) (h : IsValue Num d t v) :
    Bounded Ok d v := by
  induction d using Nat.strong_induction_on generalizing t v with
  | _ d ih =>
      cases v with
      | null => exact bounded_null
      | bool b => exact bounded_bool b
      | number n => exact bounded_number.mpr (hnum _ _ (isValue_number.mp h))
      | string s =>
          obtain ⟨u, -, hu⟩ := isValue_string.mp h
          exact bounded_string.mpr hu.joined
      | array elements =>
          obtain ⟨e, u, rfl, -, hu⟩ := isValue_array.mp h
          refine bounded_array.mpr ⟨e, rfl, fun v hv => ?_⟩
          obtain ⟨t, ht⟩ := hu.exists_of_mem hv
          exact ih e (Nat.lt_succ_self e) ht
      | object members =>
          obtain ⟨e, u, ms, rfl, -, hu, rfl⟩ := isValue_object.mp h
          obtain ⟨hnodup, hmem⟩ := lastValues_spec ms
          refine bounded_object.mpr ⟨e, rfl, hnodup, fun p hp => ?_⟩
          obtain ⟨t, n, b, c, w, -, ⟨u', -, hname⟩, -, -, hw⟩ := hu.exists_of_mem (hmem p hp)
          exact ⟨hname.joined, ih e (Nat.lt_succ_self e) hw⟩

/-- What holds of a value by two bounds holds of it by the first. -/
lemma Bounded.and {Ok' Ok'' : Number → Prop} {d' : ℕ} (h : Bounded Ok d v) (h' : Bounded Ok' d' v)
    (hok : ∀ n, Ok n → Ok' n → Ok'' n) : Bounded Ok'' d v := by
  induction d using Nat.strong_induction_on generalizing d' v with
  | _ d ih =>
      cases v with
      | null => exact bounded_null
      | bool b => exact bounded_bool b
      | number n => exact bounded_number.mpr (hok n (bounded_number.mp h) (bounded_number.mp h'))
      | string s => exact bounded_string.mpr (bounded_string.mp h)
      | array elements =>
          obtain ⟨e, rfl, h⟩ := bounded_array.mp h
          obtain ⟨e', rfl, h'⟩ := bounded_array.mp h'
          exact bounded_array.mpr
            ⟨e, rfl, fun v hv => ih e (Nat.lt_succ_self e) (h v hv) (h' v hv)⟩
      | object members =>
          obtain ⟨e, rfl, hnodup, h⟩ := bounded_object.mp h
          obtain ⟨e', rfl, -, h'⟩ := bounded_object.mp h'
          refine bounded_object.mpr ⟨e, rfl, hnodup, fun p hp => ⟨(h p hp).1, ?_⟩⟩
          exact ih e (Nat.lt_succ_self e) (h p hp).2 (h' p hp).2

end Bounded

end Rfc8259
