import CodexResetProxy.Library.HeaderText
import CodexResetProxy.Mitm.Framing

/-!
Whether the headers that are forwarded can be taken for others.

* `Unsmuggled`: headers that a tolerant reader reads as they were meant, with no
  name among them that must not be forwarded.
* `noSmuggling_iff`: **when a request has none other**.  Its lines end at CR LF and
  its names are compared as they stand, so that a bare LF, or a blank around a
  name, is forwarded.
-/

namespace CodexResetProxy

open PyStr ByteStr StreamReader HeaderText

/-! ### Forwarded headers as text -/

/-- Raw headers as text. -/
def asText (headers : RawHeaders) : List Header :=
  headers.map fun h => (decodeLatin1 h.1, decodeLatin1 h.2)

/-- Headers that are read back as they are, when they are written one to a line, and
none of which is hop-by-hop, `Host`, or nominated by those that the client sent. -/
structure Unsmuggled (sent : RawHeaders) (written : List Header) : Prop where
  back : readBack (headerText written) = some written
  names : ∀ h ∈ written,
    h.1.map lowerAscii ∉ (skipSet sent requestOnlyHeaders).map decodeLatin1

/-- Nothing is smuggled in the headers of a request, to either kind of upstream. -/
def NoSmuggling (settings : Settings) (request : HttpRequest) : Prop :=
  ∀ headers, filteredRequestHeadersFromRaw settings request.headers = some headers →
    Unsmuggled request.headers (asText headers) ∧
      Unsmuggled request.headers (websocketHeaders headers)

variable {limit : ℕ} {s t : Stream} {request : HttpRequest} {settings : Settings}
  {sent headers : RawHeaders} {h : Bytes × Bytes} {key? : Option (Bytes × Bytes)}

lemma websocketHeaders_eq : websocketHeaders headers
    = asText (headers.filter fun h => lowerBytes h.1 ∉ websocketRequestSkipHeaders) := rfl

lemma unsmuggled_asText_iff : Unsmuggled sent (asText headers) ↔
    ∀ h ∈ headers, Plain (decodeLatin1 h.1, decodeLatin1 h.2) ∧
      lowerBytes h.1 ∉ skipSet sent requestOnlyHeaders := by
  have hname : ∀ h : Bytes × Bytes,
      (decodeLatin1 h.1).map lowerAscii ∉ (skipSet sent requestOnlyHeaders).map decodeLatin1 ↔
        lowerBytes h.1 ∉ skipSet sent requestOnlyHeaders := by
    intro h
    rw [← decodeLatin1_lowerBytes, List.mem_map_of_injective decodeLatin1_injective]
  constructor
  · rintro ⟨hback, hnames⟩ h hh
    have hmem : (decodeLatin1 h.1, decodeLatin1 h.2) ∈ asText headers := List.mem_map_of_mem hh
    exact ⟨readBack_headerText_iff.mp hback _ hmem, (hname h).mp (hnames _ hmem)⟩
  · intro hall
    constructor
    case back =>
      refine readBack_headerText_iff.mpr fun p hp => ?_
      obtain ⟨h, hh, rfl⟩ := List.mem_map.mp hp
      exact (hall h hh).1
    case names =>
      intro p hp
      obtain ⟨h, hh, rfl⟩ := List.mem_map.mp hp
      exact (hname h).mpr (hall h hh).2

/-! ### Plain requests -/

/-- A header of a request that its line shows as it is: no bare LF, and no blank
around its name. -/
structure PlainField (h : Bytes × Bytes) : Prop where
  name_lf : 0x0a ∉ h.1
  name_blank : stripBlanks (decodeLatin1 h.1) = decodeLatin1 h.1
  value_lf : 0x0a ∉ h.2

/-- A request with nothing to smuggle: the headers that are forwarded are plain, and
so is the one with the key, whose name is one that may be forwarded. -/
structure PlainlySent (sent : RawHeaders) (key? : Option (Bytes × Bytes)) : Prop where
  fields : ∀ h ∈ sent, lowerBytes h.1 ∉ skipSet sent requestOnlyHeaders →
    (∀ key ∈ key?, lowerBytes h.1 ≠ lowerBytes key.1) → PlainField h
  key : ∀ key ∈ key?, PlainField key ∧ 0x3a ∉ key.1 ∧
    lowerBytes key.1 ∉ skipSet sent requestOnlyHeaders

lemma toNat_mem_decodeLatin1 {c : UInt8} {b : Bytes} : c.toNat ∈ decodeLatin1 b ↔ c ∈ b :=
  List.mem_map_of_injective fun _ _ h => UInt8.toNat_inj.mp h

lemma plain_decodeLatin1_iff :
    Plain (decodeLatin1 h.1, decodeLatin1 h.2) ↔ PlainField h ∧ 0x3a ∉ h.1 := by
  have hname : 0x0a ∈ decodeLatin1 h.1 ↔ 0x0a ∈ h.1 := @toNat_mem_decodeLatin1 0x0a h.1
  have hvalue : 0x0a ∈ decodeLatin1 h.2 ↔ 0x0a ∈ h.2 := @toNat_mem_decodeLatin1 0x0a h.2
  have hcolon : 0x3a ∈ decodeLatin1 h.1 ↔ 0x3a ∈ h.1 := @toNat_mem_decodeLatin1 0x3a h.1
  constructor
  · rintro ⟨h1, h2, h3, h4⟩
    exact ⟨⟨mt hname.mpr h1, h3, mt hvalue.mpr h4⟩, mt hcolon.mpr h2⟩
  · rintro ⟨⟨h1, h3, h4⟩, h2⟩
    exact ⟨mt hname.mp h1, mt hcolon.mp h2, h3, mt hvalue.mp h4⟩

/-- No name that is read from a line has a colon. -/
lemma colon_notMem_of_mem_sentHeaders {bytes : Bytes} (hh : h ∈ sentHeaders bytes) :
    0x3a ∉ h.1 := by
  obtain ⟨line, -, rfl⟩ := List.mem_map.mp hh
  show 0x3a ∉ (cutColon line).1
  rw [cutColon]
  split
  · rename_i hdrop
    intro hmem
    simpa using List.dropWhile_eq_nil_iff.mp hdrop _ hmem
  · intro hmem
    simpa using List.mem_takeWhile_imp hmem

/-- **When nothing is smuggled.** -/
theorem noSmuggling_iff (h : readHttpRequest limit s = .ok (some request, t)) :
    NoSmuggling settings request ↔
      ∀ key?, settings.keyHeader? = some key? → PlainlySent (sentHeaders s.bytes) key? := by
  obtain ⟨hsent, -⟩ := length_body h
  -- what `websocket_headers` makes of the headers is a part of them
  have hboth : NoSmuggling settings request ↔ ∀ headers,
      filteredRequestHeadersFromRaw settings (sentHeaders s.bytes) = some headers →
        ∀ h ∈ headers, Plain (decodeLatin1 h.1, decodeLatin1 h.2) ∧
          lowerBytes h.1 ∉ skipSet (sentHeaders s.bytes) requestOnlyHeaders := by
    rw [NoSmuggling, hsent]
    refine forall₂_congr fun headers _ => ?_
    rw [websocketHeaders_eq, unsmuggled_asText_iff, unsmuggled_asText_iff]
    exact and_iff_left_of_imp fun hall h hh => hall h (List.mem_of_mem_filter hh)
  rw [hboth, forall_mem_filteredRequestHeadersFromRaw]
  refine forall₂_congr fun key? _ => ?_
  constructor
  · rintro ⟨hkeyHeader, hclient⟩
    constructor
    case fields =>
      intro h hh hskip hname
      exact (plain_decodeLatin1_iff.mp (hclient h hh hskip hname).1).1
    case key =>
      intro key hkeyMem
      obtain ⟨hplain, hskip⟩ := hkeyHeader key hkeyMem
      obtain ⟨hfield, hcolon⟩ := plain_decodeLatin1_iff.mp hplain
      exact ⟨hfield, hcolon, hskip⟩
  · intro hplainly
    constructor
    · intro key hkeyMem
      obtain ⟨hfield, hcolon, hskip⟩ := hplainly.key key hkeyMem
      exact ⟨plain_decodeLatin1_iff.mpr ⟨hfield, hcolon⟩, hskip⟩
    · intro h hh hskip hname
      exact ⟨plain_decodeLatin1_iff.mpr ⟨hplainly.fields h hh hskip hname,
        colon_notMem_of_mem_sentHeaders hh⟩, hskip⟩

/-- A request whose second header holds a line of its own. -/
def smuggledLine : Bytes :=
  ascii "GET /a HTTP/1.1\r\nX-A: b\nTransfer-Encoding : chunked\r\n\r\n"

/-- The line is forwarded, and read back as a header. -/
theorem not_noSmuggling_lineFeed :
    ∃ request, readHttpRequest 100 ⟨smuggledLine, true⟩ = .ok (some request, ⟨[], true⟩) ∧
      ¬NoSmuggling {} request := by
  refine ⟨⟨py "GET", py "/a", py "HTTP/1.1",
    [(ascii "X-A", ascii "b\nTransfer-Encoding : chunked")], []⟩, by decide +kernel, fun hall => ?_⟩
  have hback := (hall [(ascii "X-A", ascii "b\nTransfer-Encoding : chunked")]
    (by decide +kernel)).1.back
  exact absurd hback (by decide +kernel)

/-- A nominated header is not forwarded, and nothing else is taken for it. -/
theorem noSmuggling_nominated :
    ∃ request, readHttpRequest 100
        ⟨ascii "GET /a HTTP/1.1\r\nConnection: x-a\r\nX-A: b\r\nX-B: a:b \r\n\r\n", true⟩
        = .ok (some request, ⟨[], true⟩) ∧
      NoSmuggling {} request := by
  have hread : readHttpRequest 100
      ⟨ascii "GET /a HTTP/1.1\r\nConnection: x-a\r\nX-A: b\r\nX-B: a:b \r\n\r\n", true⟩
      = .ok (some ⟨py "GET", py "/a", py "HTTP/1.1", [(ascii "Connection", ascii "x-a"),
          (ascii "X-A", ascii "b"), (ascii "X-B", ascii "a:b ")], []⟩, ⟨[], true⟩) := by
    decide +kernel
  refine ⟨_, hread, (noSmuggling_iff hread).mpr fun key? hkey => ?_⟩
  obtain rfl : none = key? := Option.some.inj hkey
  have hplain : ∀ h ∈ sentHeaders
      (ascii "GET /a HTTP/1.1\r\nConnection: x-a\r\nX-A: b\r\nX-B: a:b \r\n\r\n"),
      0x0a ∉ h.1 ∧ stripBlanks (decodeLatin1 h.1) = decodeLatin1 h.1 ∧ 0x0a ∉ h.2 := by
    decide +kernel
  refine ⟨fun h hh _ _ => ?_, fun key hkey => by simp at hkey⟩
  obtain ⟨h1, h2, h3⟩ := hplain h hh
  exact ⟨h1, h2, h3⟩

end CodexResetProxy
