import Mathlib.Data.List.Basic
import CodexResetProxy.Library.ByteStr
import CodexResetProxy.Library.PyStr

/-!
`ipaddress.ip_address` and its `packed`: the bytes of an address in text.

* `parseIpv4`, `parseIpv6`: the constructors of the two classes, with `none` for an
  `AddressValueError`; `parse` tries one after the other.
* `parse_decimal`, `parse_hextets`: an address is read back from four numbers in decimal,
  and from eight groups of four hexadecimal digits.
-/

namespace IpAddress

open PyStr ByteStr

/-- The value of a digit in a base up to 16. -/
def digit? (base c : ℕ) : Option ℕ :=
  let d :=
    if 0x30 ≤ c ∧ c ≤ 0x39 then c - 0x30
    else if 0x61 ≤ c ∧ c ≤ 0x66 then c - 0x57
    else if 0x41 ≤ c ∧ c ≤ 0x46 then c - 0x37
    else base
  if d < base then some d else none

/-- `int(s, base)` of digits alone. -/
def number? (base : ℕ) (s : PyStr) : Option ℕ :=
  if s = [] then none else (s.mapM (digit? base)).map (ofDigits base)

/-- `IPv4Address._parse_octet`. -/
def parseOctet (octet : PyStr) : Option ℕ :=
  if 3 < octet.length ∨ (octet ≠ [0x30] ∧ octet.head? = some 0x30) then none
  else (number? 10 octet).filter (· ≤ 255)

/-- `IPv4Address(s).packed`. -/
def parseIpv4 (s : PyStr) : Option Bytes :=
  let octets := s.splitOn 0x2e
  if octets.length ≠ 4 then none else (octets.mapM parseOctet).map (·.map UInt8.ofNat)

/-- `IPv6Address._parse_hextet`. -/
def parseHextet (hextet : PyStr) : Option ℕ :=
  if 4 < hextet.length then none else number? 16 hextet

/-- An address of IPv4 at the end stands for two hextets. -/
def expandIpv4 (parts : List PyStr) : Option (List PyStr) :=
  let last := parts.getLastD []
  if 0x2e ∈ last then
    (parseIpv4 last).map fun b =>
      let word := fun k => (b.getD k 0).toNat * 256 + (b.getD (k + 1) 0).toNat
      parts.dropLast ++ [decodeLatin1 (format 16 (word 0)), decodeLatin1 (format 16 (word 2))]
  else some parts

/-- The hextets on one side of `::`; the outer part is empty if there are none. -/
def sideHextets (outer : Option PyStr) (parts : List PyStr) : Option (List ℕ) :=
  if outer = some [] then if parts.length = 1 then some [] else none
  else parts.mapM parseHextet

/-- The eight hextets of the parts between colons. -/
def parseHextets (parts : List PyStr) : Option (List ℕ) :=
  match parts.tail.dropLast.findIdxs (· = []) with
  | [] =>
      if parts.length = 8 ∧ parts.head? ≠ some [] ∧ parts.getLast? ≠ some [] then
        parts.mapM parseHextet
      else none
  | [k] => do
      let high ← sideHextets parts.head? (parts.take (k + 1))
      let low ← sideHextets parts.getLast? (parts.drop (k + 2))
      if high.length + low.length < 8 then
        return high ++ List.replicate (8 - (high.length + low.length)) 0 ++ low
      else none
  | _ => none

/-- The two bytes of a hextet. -/
def hextetBytes (n : ℕ) : Bytes := [UInt8.ofNat (n / 256), UInt8.ofNat (n % 256)]

/-- `IPv6Address(s).packed`. A scope behind `%` is left out. -/
def parseIpv6 (s : PyStr) : Option Bytes := do
  let (address, scope) := cut 0x25 s
  if 0x2f ∈ s ∨ scope = some [] ∨ 0x25 ∈ scope.getD [] then none
  else if (address.splitOn 0x3a).length < 3 then none
  else
    let parts ← expandIpv4 (address.splitOn 0x3a)
    if 9 < parts.length then none
    else return (← parseHextets parts).flatMap hextetBytes

/-- `ipaddress.ip_address(s).packed`. -/
def parse (s : PyStr) : Option Bytes := (parseIpv4 s).or (parseIpv6 s)

example : parse (py "64:ff9b::192.0.2.1")
    = some [0, 0x64, 0xff, 0x9b, 0, 0, 0, 0, 0, 0, 0, 0, 192, 0, 2, 1] := by
  decide +kernel

/-! ### Reading back -/

/-- A byte in two hexadecimal digits. -/
def hexByte (c : UInt8) : Bytes := [digitByte (c.toNat / 16), digitByte (c.toNat % 16)]

/-- `bytes.hex`. -/
def hexText (b : Bytes) : PyStr := decodeLatin1 (b.flatMap hexByte)

lemma digit?_digitByte {d : ℕ} (hd : d < 16) : digit? 16 (digitByte d).toNat = some d := by
  have hall : ∀ d : Fin 16, digit? 16 (digitByte d).toNat = some d.val := by decide
  exact hall ⟨d, hd⟩

/-- What the text of a number is made of. -/
lemma mem_decodeLatin1_format {base n c : ℕ} (hbase : 1 < base) (h16 : base ≤ 16)
    (h : c ∈ decodeLatin1 (format base n)) : ∃ d < 16, c = (digitByte d).toNat := by
  obtain ⟨b, hb, rfl⟩ := List.mem_map.mp h
  obtain ⟨d, hd, rfl⟩ := mem_format hbase h16 hb
  exact ⟨d, hd, rfl⟩

lemma mem_hexText {b : Bytes} {c : ℕ} (h : c ∈ hexText b) : ∃ d < 16, c = (digitByte d).toNat := by
  obtain ⟨x, hx, rfl⟩ := List.mem_map.mp h
  obtain ⟨y, -, hx⟩ := List.mem_flatMap.mp hx
  have hy : y.toNat < 256 := y.toNat_lt
  rcases List.mem_cons.mp hx with rfl | hx
  · exact ⟨_, by omega, rfl⟩
  · obtain rfl := List.mem_singleton.mp hx
    exact ⟨_, by omega, rfl⟩

/-- A digit is none of the delimiters. -/
lemma digitByte_ne {d : ℕ} (hd : d < 16) :
    (digitByte d).toNat ≠ 0x2e ∧ (digitByte d).toNat ≠ 0x3a ∧
      (digitByte d).toNat ≠ 0x25 ∧ (digitByte d).toNat ≠ 0x2f := by
  have hall : ∀ d : Fin 16, (digitByte d).toNat ≠ 0x2e ∧ (digitByte d).toNat ≠ 0x3a ∧
      (digitByte d).toNat ≠ 0x25 ∧ (digitByte d).toNat ≠ 0x2f := by decide
  exact hall ⟨d, hd⟩

lemma parseOctet_format {n : ℕ} (hn : n < 256) :
    parseOctet (decodeLatin1 (format 10 n)) = some n := by
  have hall : ∀ n : Fin 256, parseOctet (decodeLatin1 (format 10 n)) = some n.val := by
    decide +kernel
  exact hall ⟨n, hn⟩

/-- **Four numbers in decimal** are read back. -/
theorem parse_decimal {b : Bytes} (hb : b.length = 4) :
    parse (List.intercalate [0x2e] (b.map fun c => decodeLatin1 (format 10 c.toNat))) = some b := by
  have hdot : ∀ l ∈ b.map (fun c => decodeLatin1 (format 10 c.toNat)), 0x2e ∉ l := by
    intro l hl hmem
    obtain ⟨c, -, rfl⟩ := List.mem_map.mp hl
    obtain ⟨d, hd, heq⟩ := mem_decodeLatin1_format (by decide) (by decide) hmem
    exact (digitByte_ne hd).1 heq.symm
  have hne : b.map (fun c => decodeLatin1 (format 10 c.toNat)) ≠ [] :=
    List.ne_nil_of_length_pos (by simp [hb])
  have hoctets : (b.map fun c => decodeLatin1 (format 10 c.toNat)).mapM parseOctet
      = some (b.map UInt8.toNat) := by
    rw [List.mapM_map]
    exact mapM_eq_some fun c _ => parseOctet_format c.toNat_lt
  rw [parse, parseIpv4, List.splitOn_intercalate _ hdot hne, if_neg (by simp [hb]), hoctets]
  have hbytes : (b.map UInt8.toNat).map UInt8.ofNat = b := by
    rw [List.map_map]
    exact (List.map_congr_left fun c _ => UInt8.ofNat_toNat).trans (List.map_id b)
  rw [Option.map_some, hbytes, Option.some_or]

lemma parseHextet_hexText (a b : UInt8) :
    parseHextet (hexText [a, b]) = some (a.toNat * 256 + b.toNat) := by
  have ha : a.toNat < 256 := a.toNat_lt
  have hb : b.toNat < 256 := b.toNat_lt
  have hdigits : (hexText [a, b]).mapM (digit? 16)
      = some [a.toNat / 16, a.toNat % 16, b.toNat / 16, b.toNat % 16] := by
    simp [hexText, hexByte, decodeLatin1, digit?_digitByte (show a.toNat / 16 < 16 by omega),
      digit?_digitByte (show a.toNat % 16 < 16 by omega),
      digit?_digitByte (show b.toNat / 16 < 16 by omega),
      digit?_digitByte (show b.toNat % 16 < 16 by omega)]
  have hvalue : ofDigits 16 [a.toNat / 16, a.toNat % 16, b.toNat / 16, b.toNat % 16]
      = a.toNat * 256 + b.toNat := by
    simp only [ofDigits, List.foldl_cons, List.foldl_nil]
    omega
  have hlength : (hexText [a, b]).length = 4 := rfl
  have hne : hexText [a, b] ≠ [] := List.ne_nil_of_length_pos (by omega)
  rw [parseHextet, if_neg (by omega), number?, if_neg hne, hdigits, Option.map_some, hvalue]

lemma hextetBytes_eq (a b : UInt8) : hextetBytes (a.toNat * 256 + b.toNat) = [a, b] := by
  have hb : b.toNat < 256 := b.toNat_lt
  have hhigh : (a.toNat * 256 + b.toNat) / 256 = a.toNat := by omega
  have hlow : (a.toNat * 256 + b.toNat) % 256 = b.toNat := by omega
  rw [hextetBytes, hhigh, hlow, UInt8.ofNat_toNat, UInt8.ofNat_toNat]

/-- Eight groups, none of them empty, are read one by one. -/
lemma parseHextets_of_notMem {parts : List PyStr} (hlength : parts.length = 8)
    (hnil : ([] : PyStr) ∉ parts) : parseHextets parts = parts.mapM parseHextet := by
  have hinner : parts.tail.dropLast.findIdxs (· = []) = [] := by
    rw [List.findIdxs_eq_nil_iff]
    intro l hl
    have hmem : l ∈ parts := List.mem_of_mem_tail (List.dropLast_subset _ hl)
    simpa using ne_of_mem_of_not_mem hmem hnil
  have hhead : parts.head? ≠ some [] := fun h => hnil (List.mem_of_mem_head? h)
  have hlast : parts.getLast? ≠ some [] := fun h => hnil (List.mem_of_getLast? h)
  rw [parseHextets, hinner]
  dsimp only
  rw [if_pos ⟨hlength, hhead, hlast⟩]

/-- **Eight groups of four digits** are read back. -/
theorem parse_hextets {groups : List (UInt8 × UInt8)} (hgroups : groups.length = 8) :
    parse (List.intercalate [0x3a] (groups.map fun g => hexText [g.1, g.2]))
      = some (groups.flatMap fun g => [g.1, g.2]) := by
  set parts := groups.map fun g => hexText [g.1, g.2] with hparts
  -- the groups are of hexadecimal digits, so none has one of `.:%/` in it
  have hdigit : ∀ l ∈ parts, ∀ c ∈ l, ∃ d < 16, c = (digitByte d).toNat := by
    intro l hl c hc
    obtain ⟨g, -, rfl⟩ := List.mem_map.mp hl
    exact mem_hexText hc
  have hlength : parts.length = 8 := by simp [hparts, hgroups]
  have hne : parts ≠ [] := List.ne_nil_of_length_pos (by omega)
  have hnil : ([] : PyStr) ∉ parts := by
    intro hmem
    obtain ⟨g, -, hg⟩ := List.mem_map.mp hmem
    exact List.cons_ne_nil _ _ hg
  have hnot : ∀ {c : ℕ}, (∀ d < 16, (digitByte d).toNat ≠ c) → ∀ l ∈ parts, c ∉ l := by
    intro c hc l hl hmem
    obtain ⟨d, hd, heq⟩ := hdigit l hl c hmem
    exact hc d hd heq.symm
  have htext : ∀ {c : ℕ}, c ≠ 0x3a → (∀ d < 16, (digitByte d).toNat ≠ c) →
      c ∉ List.intercalate [0x3a] parts := by
    intro c hcolon hc hmem
    rcases mem_of_mem_intercalate hmem with rfl | ⟨l, hl, hmem⟩
    · exact hcolon rfl
    · exact hnot hc l hl hmem
  have hsplit : (List.intercalate [0x3a] parts).splitOn 0x3a = parts :=
    List.splitOn_intercalate _ (hnot fun d hd => (digitByte_ne hd).2.1) hne
  -- it is no address of IPv4, since it has no dot
  have hipv4 : parseIpv4 (List.intercalate [0x3a] parts) = none := by
    rw [parseIpv4, List.splitOn_eq_singleton (htext (by decide) fun d hd => (digitByte_ne hd).1)]
    rfl
  have hexpand : expandIpv4 parts = some parts := by
    have hdot : 0x2e ∉ parts.getLastD [] := by
      rw [List.getLastD_eq_getLast?, List.getLast?_eq_getLast_of_ne_nil hne]
      exact hnot (fun d hd => (digitByte_ne hd).1) _ (List.getLast_mem hne)
    rw [expandIpv4]
    exact if_neg hdot
  have hvalues : parts.mapM parseHextet
      = some (groups.map fun g => g.1.toNat * 256 + g.2.toNat) := by
    rw [hparts, List.mapM_map]
    exact mapM_eq_some fun g _ => parseHextet_hexText g.1 g.2
  have hbytes : (groups.map fun g => g.1.toNat * 256 + g.2.toNat).flatMap hextetBytes
      = groups.flatMap fun g => [g.1, g.2] := by
    rw [List.flatMap_map]
    exact List.flatMap_congr fun g _ => hextetBytes_eq g.1 g.2
  rw [parse, hipv4, Option.none_or, parseIpv6,
    cut_of_notMem (htext (by decide) fun d hd => (digitByte_ne hd).2.2.1)]
  have hslash := htext (c := 0x2f) (by decide) fun d hd => (digitByte_ne hd).2.2.2
  simp [hslash, hsplit, hlength, hexpand, parseHextets_of_notMem hlength hnil, hvalues, hbytes]

end IpAddress
