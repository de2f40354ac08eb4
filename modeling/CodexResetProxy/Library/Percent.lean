import CodexResetProxy.Library.ByteStr
import CodexResetProxy.Library.PyStr

/-!
Percent-encoded text, as `urllib.parse.unquote` decodes it.

* `unquoteToBytes`: the bytes that the escapes stand for.
* `decodeReplace`: `bytes.decode("utf-8", "replace")`, with U+FFFD for the longest
  beginning of a sequence that does not go on.
* `unquote`: both, for a text of ASCII.
* `takeWhile_decodeReplace_lt`: **when the front of a decoded text is ASCII**.
-/

namespace Percent

open PyStr ByteStr

/-- `unquote_to_bytes`: an escape that is none stays as it is. -/
def unquoteToBytes : Bytes → Bytes
  | 0x25 :: a :: b :: s =>
      if digitValue a < 16 ∧ digitValue b < 16 then
        UInt8.ofNat (digitValue a * 16 + digitValue b) :: unquoteToBytes s
      else 0x25 :: unquoteToBytes (a :: b :: s)
  | c :: s => c :: unquoteToBytes s
  | [] => []

/-! ### Decoding with replacement -/

/-- What replaces a sequence that is none. -/
def replacement : ℕ := 0xfffd

/-- What follows a first byte: how many bytes, the bounds of the first of them, and the
bits of the first byte. -/
def leadByte (c : ℕ) : Option (ℕ × ℕ × ℕ × ℕ) :=
  if 0xc2 ≤ c ∧ c ≤ 0xdf then some (1, 0x80, 0xbf, c - 0xc0)
  else if c = 0xe0 then some (2, 0xa0, 0xbf, 0)
  else if c = 0xed then some (2, 0x80, 0x9f, 0xd)
  else if 0xe1 ≤ c ∧ c ≤ 0xef then some (2, 0x80, 0xbf, c - 0xe0)
  else if c = 0xf0 then some (3, 0x90, 0xbf, 0)
  else if 0xf1 ≤ c ∧ c ≤ 0xf3 then some (3, 0x80, 0xbf, c - 0xf0)
  else if c = 0xf4 then some (3, 0x80, 0x8f, 4)
  else none

/-- The rest of a sequence, from the bits so far: its character, and what follows it. -/
def decodeTail : ℕ → ℕ → ℕ → ℕ → Bytes → ℕ × Bytes
  | 0, _, _, bits, s => (bits, s)
  | _ + 1, _, _, _, [] => (replacement, [])
  | n + 1, low, high, bits, d :: s =>
      if low ≤ d.toNat ∧ d.toNat ≤ high then
        decodeTail n 0x80 0xbf (bits * 64 + (d.toNat - 0x80)) s
      else (replacement, d :: s)

/-- The character that a text starts with, and what follows it. -/
def decodeFirst (c : UInt8) (s : Bytes) : ℕ × Bytes :=
  if c < 0x80 then (c.toNat, s)
  else
    match leadByte c.toNat with
    | none => (replacement, s)
    | some (n, low, high, bits) => decodeTail n low high bits s

/-- `bytes.decode("utf-8", "replace")`, bounded by the number of bytes. -/
def decodeReplaceFrom : ℕ → Bytes → PyStr
  | n + 1, c :: s => (decodeFirst c s).1 :: decodeReplaceFrom n (decodeFirst c s).2
  | _, _ => []

/-- `bytes.decode("utf-8", "replace")`. -/
def decodeReplace (b : Bytes) : PyStr := decodeReplaceFrom b.length b

example : decodeReplace
      [0x61, 0xf0, 0x9f, 0x98, 0x80, 0xe2, 0x82, 0x62, 0xc3, 0xa9, 0xff, 0xed, 0xa0]
    = [0x61, 0x1f600, 0xfffd, 0x62, 0xe9, 0xfffd, 0xfffd, 0xfffd] := by decide

/-- `urllib.parse.unquote` of a text of ASCII. -/
def unquote (b : Bytes) : PyStr := decodeReplace (unquoteToBytes b)

/-! ### ASCII -/

/-- A sequence of more than one byte is no ASCII. -/
lemma le_decodeTail {n low high bits : ℕ} {s : Bytes} (hlow : 0x80 ≤ low)
    (hbits : 0x80 ≤ bits ∨ 1 ≤ n ∧ 2 ≤ bits ∨ 2 ≤ n ∧ 0x10 ≤ bits * 64 + (low - 0x80)) :
    0x80 ≤ (decodeTail n low high bits s).1 := by
  induction n generalizing low high bits s with
  | zero =>
      rw [decodeTail]
      dsimp only
      omega
  | succ n ih =>
      cases s with
      | nil => exact (by decide : 0x80 ≤ replacement)
      | cons d s =>
          rw [decodeTail]
          split_ifs with hd
          · refine ih le_rfl ?_
            rcases hbits with h | ⟨-, h⟩ | ⟨hn, h⟩
            · exact .inl (by omega)
            · exact .inl (by omega)
            · exact .inr (.inl ⟨by omega, by omega⟩)
          · exact (by decide : 0x80 ≤ replacement)

lemma le_decodeFirst {c : UInt8} (hc : ¬c < 0x80) (s : Bytes) : 0x80 ≤ (decodeFirst c s).1 := by
  rw [decodeFirst, if_neg hc]
  cases hlead : leadByte c.toNat with
  | none => exact (by decide : 0x80 ≤ replacement)
  | some p =>
      obtain ⟨n, low, high, bits⟩ := p
      rw [leadByte] at hlead
      dsimp only
      refine le_decodeTail ?_ ?_ <;> split_ifs at hlead <;> grind

lemma decodeReplace_cons_of_lt {c : UInt8} (hc : c < 0x80) (s : Bytes) :
    decodeReplace (c :: s) = c.toNat :: decodeReplace s := by
  rw [decodeReplace, List.length_cons, decodeReplaceFrom, decodeFirst, if_pos hc]
  rfl

/-- **The front of a decoded text** is ASCII if and only if that of its bytes is, up to a
delimiter in ASCII. -/
theorem takeWhile_decodeReplace_lt {p : ℕ → Bool} (hp : ∀ c, 0x80 ≤ c → p c) (b : Bytes) :
    (∀ x ∈ (decodeReplace b).takeWhile p, x < 0x80) ↔
      ∀ c ∈ b.takeWhile (fun c => p c.toNat), c < 0x80 := by
  induction b with
  | nil => simp [decodeReplace, decodeReplaceFrom]
  | cons c s ih =>
      by_cases hc : c < 0x80
      · rw [decodeReplace_cons_of_lt hc, List.takeWhile_cons, List.takeWhile_cons]
        split_ifs
        · have hlow : c.toNat < 0x80 := UInt8.lt_iff_toNat_lt.mp hc
          rw [List.forall_mem_cons, List.forall_mem_cons, ih, and_iff_right hlow, and_iff_right hc]
        · simp
      · have hlarge : 0x80 ≤ c.toNat := Nat.not_lt.mp fun h => hc (UInt8.lt_iff_toNat_lt.mpr h)
        have hfirst := le_decodeFirst hc s
        refine iff_of_false (fun hall => ?_) fun hall => ?_
        · rw [decodeReplace, List.length_cons, decodeReplaceFrom,
            List.takeWhile_cons_of_pos (hp _ hfirst)] at hall
          have := hall _ List.mem_cons_self
          omega
        · rw [List.takeWhile_cons, if_pos (hp _ hlarge)] at hall
          exact hc (hall c List.mem_cons_self)

end Percent
