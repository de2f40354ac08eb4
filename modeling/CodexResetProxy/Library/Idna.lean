import Mathlib.Data.List.Infix
import CodexResetProxy.Library.ByteStr
import CodexResetProxy.Library.PyStr

/-!
`encodings.idna`: host names as bytes.

The tables of `nameprep` and the codec `punycode` are parameters; they matter to
labels that are not ASCII.

* `encode`, `decode`: `str.encode("idna")` and `bytes.decode("idna")`, with `none`
  for a `UnicodeError`.
* `decode_plain`: the text of a name of ASCII labels is its bytes.
-/

namespace Idna

open PyStr ByteStr

/-- `nameprep`, and the codec `punycode`. -/
structure Tables where
  nameprep : PyStr → Option PyStr
  punycode : PyStr → Bytes
  unpunycode : Bytes → Option PyStr

/-- `bytes.decode("ascii")`. -/
def decodeAscii (b : Bytes) : Option PyStr :=
  if b.all (· < 0x80) then some (decodeLatin1 b) else none

/-- `ace_prefix`. -/
def acePrefix : Bytes := [0x78, 0x6e, 0x2d, 0x2d]

/-- Whether a label has the prefix, in any case. -/
def IsAce (label : Bytes) : Prop :=
  (decodeLatin1 (label.take 4)).map lowerAscii = decodeLatin1 acePrefix

instance : DecidablePred IsAce := fun label =>
  inferInstanceAs
    (Decidable ((decodeLatin1 (label.take 4)).map lowerAscii = decodeLatin1 acePrefix))

/-- The check of a label's size. -/
def checkLabel (label : Bytes) : Option Bytes :=
  if 0 < label.length ∧ label.length < 64 then some label else none

/-- Labels, and a dot at the end if the last one is empty. -/
def trailingDot {α : Type} (dot : α) (labels : List (List α)) : List (List α) × List α :=
  match labels.getLast? with
  | some [] => (labels.dropLast, [dot])
  | _ => (labels, [])

variable (t : Tables)

/-- `ToASCII`. -/
def toAscii (label : PyStr) : Option Bytes :=
  match encodeAscii label with
  | some b => checkLabel b
  | none => do
      let label ← t.nameprep label
      match encodeAscii label with
      | some b => checkLabel b
      | none =>
          if decodeLatin1 acePrefix <+: label then none
          else checkLabel (acePrefix ++ t.punycode label)

/-- `ToUnicode` of bytes. -/
def toUnicode (label : Bytes) : Option PyStr :=
  if 1024 < label.length then none
  else if ¬IsAce label then decodeAscii label
  else do
    let result ← t.unpunycode (label.drop 4)
    let label' ← toAscii t result
    let text ← decodeAscii label
    if text.map lowerAscii = decodeLatin1 label' then some result else none

/-- The dots that separate labels. -/
def isDot (c : ℕ) : Bool := c = 0x2e ∨ c = 0x3002 ∨ c = 0xff0e ∨ c = 0xff61

/-- `str.encode("idna")`. -/
def encode (host : PyStr) : Option Bytes :=
  if host = [] then some []
  else
    match encodeAscii host with
    | some b =>
        let labels := b.splitOn 0x2e
        if (∀ l ∈ labels.dropLast, 0 < l.length ∧ l.length < 64) ∧
            (labels.getLastD []).length < 64 then some b
        else none
    | none =>
        let (labels, dot) := trailingDot 0x2e (host.splitOnP isDot)
        (labels.mapM (toAscii t)).map fun ls =>
          List.intercalate [0x2e] ls ++ dot.map UInt8.ofNat

/-- `bytes.decode("idna")`. -/
def decode (b : Bytes) : Option PyStr :=
  if b = [] then some []
  else
    let fast :=
      if decodeLatin1 acePrefix <:+: (decodeLatin1 b).map lowerAscii then none else decodeAscii b
    match fast with
    | some s => some s
    | none =>
        let (labels, dot) := trailingDot 0x2e (b.splitOn 0x2e)
        (labels.mapM (toUnicode t)).map fun ls =>
          List.intercalate [0x2e] ls ++ decodeLatin1 dot

/-! ### Plain names -/

variable {t} {b : Bytes} {host : PyStr}

lemma encodeAscii_of_lt (hhost : ∀ c ∈ host, c < 0x80) :
    encodeAscii host = some (host.map UInt8.ofNat) ∧
      decodeLatin1 (host.map UInt8.ofNat) = host := by
  refine ⟨if_pos hhost, encodeLatin1_eq_some_iff.mp ?_⟩
  exact if_pos fun c hc => (hhost c hc).trans (by decide)

/-- An ASCII name is encoded as it is. -/
lemma decodeLatin1_encode (h : encode t host = some b) (hhost : ∀ c ∈ host, c < 0x80) :
    decodeLatin1 b = host := by
  obtain ⟨hencode, hdecode⟩ := encodeAscii_of_lt hhost
  rw [encode] at h
  split_ifs at h with hempty
  · obtain rfl := Option.some.inj h
    exact hempty.symm
  · rw [hencode] at h
    dsimp only at h
    split_ifs at h
    obtain rfl := Option.some.inj h
    exact hdecode

/-- A name of ASCII, with labels that are not empty and have no prefix. -/
structure PlainName (b : Bytes) : Prop where
  ascii : ∀ c ∈ b, c < 0x80
  labels : ∀ l ∈ b.splitOn 0x2e, 1 ≤ l.length ∧ l.length ≤ 63 ∧ ¬IsAce l
  length : 1 ≤ b.length ∧ b.length ≤ 255

lemma decodeAscii_of_lt {b : Bytes} (hascii : ∀ c ∈ b, c < 0x80) :
    decodeAscii b = some (decodeLatin1 b) :=
  if_pos (by simpa using hascii)

lemma toUnicode_plain {l : Bytes} (hascii : ∀ c ∈ l, c < 0x80) (hlength : l.length ≤ 63)
    (hace : ¬IsAce l) : toUnicode t l = some (decodeLatin1 l) := by
  rw [toUnicode, if_neg (by omega), if_pos hace, decodeAscii_of_lt hascii]

lemma intercalate_decodeLatin1 (ls : List Bytes) :
    List.intercalate [0x2e] (ls.map decodeLatin1) = decodeLatin1 (List.intercalate [0x2e] ls) := by
  induction ls with
  | nil => rfl
  | cons l ls ih =>
      cases ls with
      | nil => simp [decodeLatin1]
      | cons l' ls =>
          rw [List.map_cons, List.map_cons, List.intercalate_cons_cons, ← List.map_cons, ih,
            List.intercalate_cons_cons]
          simp [decodeLatin1]

/-- **A plain name is decoded as it is.** -/
theorem decode_plain (hb : PlainName b) : decode t b = some (decodeLatin1 b) := by
  have hne : b ≠ [] := List.ne_nil_of_length_pos hb.length.1
  rw [decode, if_neg hne]
  dsimp only
  by_cases hprefix : decodeLatin1 acePrefix <:+: (decodeLatin1 b).map lowerAscii
  · have hlast : ∀ l, (b.splitOn 0x2e).getLast? = some l → l ≠ [] := by
      rintro l hl rfl
      exact absurd (hb.labels [] (List.mem_of_getLast? hl)).1 (by decide)
    have hdot : trailingDot 0x2e (b.splitOn 0x2e) = (b.splitOn 0x2e, []) := by
      rw [trailingDot]
      split
      · rename_i hl
        exact absurd rfl (hlast [] hl)
      · rfl
    have hlabels : ∀ l ∈ b.splitOn 0x2e, toUnicode t l = some (decodeLatin1 l) := by
      intro l hl
      obtain ⟨-, hlength, hace⟩ := hb.labels l hl
      exact toUnicode_plain (fun c hc => hb.ascii c (mem_of_mem_splitOn hl hc).1) hlength hace
    rw [if_pos hprefix]
    dsimp only
    rw [hdot]
    dsimp only
    rw [mapM_eq_some hlabels, Option.map_some, intercalate_decodeLatin1,
      List.intercalate_splitOn]
    simp [decodeLatin1]
  · rw [if_neg hprefix, decodeAscii_of_lt hb.ascii]

end Idna
