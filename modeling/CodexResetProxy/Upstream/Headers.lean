import CodexResetProxy.Bridge.PoolKey
import CodexResetProxy.Library.ByteStr

/-!
The headers that go upstream (`filtered_request_headers_from_raw`,
`_filter_raw_headers`, `_split_header_tokens`).

* `skipSet`: the names that are left out of a list, the tokens of its `Connection`
  headers included; `filterRawHeaders`: what is left.
* `filteredRequestHeadersFromRaw`: the headers of a request, with the configured
  key in place of what the client sent under its name;
  `mem_filteredRequestHeadersFromRaw`: which ones they are.
* `IsEndToEnd`: what a client's header must be to go upstream; `hopByHopLaw`: **these
  and the key go upstream**, and nothing is left to filter after that.
-/

namespace CodexResetProxy

open PyStr ByteStr

/-- Raw headers, as pairs of byte strings. -/
abbrev RawHeaders := List (Bytes × Bytes)

/-- `HOP_BY_HOP_HEADERS`. -/
def hopByHopHeaders : List Bytes :=
  [ascii "connection", ascii "keep-alive", ascii "proxy-authenticate",
    ascii "proxy-authorization", ascii "proxy-connection", ascii "te", ascii "trailer",
    ascii "transfer-encoding", ascii "upgrade"]

/-- `REQUEST_ONLY_HEADERS`. -/
def requestOnlyHeaders : List Bytes := [ascii "host"]

/-- `_split_header_tokens`. -/
def splitHeaderTokens (value : Bytes) : List Bytes :=
  ((value.splitOn 0x2c).filter fun part => ByteStr.strip part ≠ []).map fun part =>
    lowerBytes (ByteStr.strip part)

/-- The names that the `Connection` headers of a list nominate. -/
def nominated (rawHeaders : RawHeaders) : List Bytes :=
  rawHeaders.flatMap fun h =>
    if lowerBytes h.1 = ascii "connection" then splitHeaderTokens h.2 else []

/-- The names that `_filter_raw_headers` skips. -/
def skipSet (rawHeaders : RawHeaders) (extraSkip : List Bytes) : List Bytes :=
  hopByHopHeaders ++ extraSkip ++ nominated rawHeaders

/-- `_filter_raw_headers`. -/
def filterRawHeaders (rawHeaders : RawHeaders) (extraSkip : List Bytes) : RawHeaders :=
  rawHeaders.filter fun h => lowerBytes h.1 ∉ skipSet rawHeaders extraSkip

/-- The header with the configured key, with `none` for a `UnicodeEncodeError`. -/
def apiKeyHeader (settings : Settings) (apiKey : PyStr) : Option (Bytes × Bytes) := do
  let name ← encodeLatin1 settings.upstreamApiKeyHeader
  let value ← encodeLatin1 (settings.upstreamApiKeyPrefix ++ apiKey)
  return (name, value)

/-- The configured key, if there is one: `None` and the empty string are none. -/
def Settings.apiKey? (settings : Settings) : Option PyStr :=
  settings.upstreamApiKey.filter (· ≠ [])

/-- `filtered_request_headers_from_raw`, with `none` for a `UnicodeEncodeError`. -/
def filteredRequestHeadersFromRaw (settings : Settings) (rawHeaders : RawHeaders) :
    Option RawHeaders :=
  let headers := filterRawHeaders rawHeaders requestOnlyHeaders
  match settings.apiKey? with
  | none => some headers
  | some apiKey =>
      (apiKeyHeader settings apiKey).map fun key =>
        (headers.filter fun h => lowerBytes h.1 ≠ lowerBytes key.1) ++ [key]

/-- `bytes.lower` is the lower case of ASCII letters. -/
lemma decodeLatin1_lowerBytes (b : Bytes) :
    decodeLatin1 (lowerBytes b) = (decodeLatin1 b).map lowerAscii := by
  rw [decodeLatin1, lowerBytes, decodeLatin1, List.map_map, List.map_map]
  refine List.map_congr_left fun c _ => ?_
  simp only [Function.comp_apply]
  have hupper : (0x41 ≤ c ∧ c ≤ 0x5a) ↔ (0x41 ≤ c.toNat ∧ c.toNat ≤ 0x5a) := by
    simp [UInt8.le_iff_toNat_le]
  by_cases hc : 0x41 ≤ c ∧ c ≤ 0x5a
  · have hn := hupper.mp hc
    rw [if_pos hc, lowerAscii, if_pos hn, UInt8.toNat_add]
    exact Nat.mod_eq_of_lt (show c.toNat + 0x20 < 2 ^ 8 by omega)
  · rw [if_neg hc, lowerAscii, if_neg fun hn => hc (hupper.mpr hn)]

variable {settings : Settings} {rawHeaders headers : RawHeaders} {h key : Bytes × Bytes}
  {apiKey : PyStr}

lemma apiKeyHeader_eq_some_iff : apiKeyHeader settings apiKey = some key ↔
    decodeLatin1 key.1 = settings.upstreamApiKeyHeader ∧
      decodeLatin1 key.2 = settings.upstreamApiKeyPrefix ++ apiKey := by
  rw [← encodeLatin1_eq_some_iff, ← encodeLatin1_eq_some_iff, apiKeyHeader]
  obtain ⟨name, value⟩ := key
  cases encodeLatin1 settings.upstreamApiKeyHeader with
  | none => simp
  | some n =>
      cases encodeLatin1 (settings.upstreamApiKeyPrefix ++ apiKey) with
      | none => simp
      | some v => simp

/-- The headers of a request without a configured key. -/
lemma filteredRequestHeadersFromRaw_of_none (hkey : settings.apiKey? = none) :
    filteredRequestHeadersFromRaw settings rawHeaders
      = some (filterRawHeaders rawHeaders requestOnlyHeaders) := by
  rw [filteredRequestHeadersFromRaw, hkey]

/-- The headers of a request with a configured key. -/
lemma filteredRequestHeadersFromRaw_of_some (hkey : settings.apiKey? = some apiKey) :
    filteredRequestHeadersFromRaw settings rawHeaders
      = (apiKeyHeader settings apiKey).map fun key =>
          ((filterRawHeaders rawHeaders requestOnlyHeaders).filter fun h =>
            lowerBytes h.1 ≠ lowerBytes key.1) ++ [key] := by
  rw [filteredRequestHeadersFromRaw, hkey]

/-- The header with the configured key, if there is one, with an outer `none` for a
`UnicodeEncodeError`. -/
def Settings.keyHeader? (settings : Settings) : Option (Option (Bytes × Bytes)) :=
  match settings.apiKey? with
  | none => some none
  | some apiKey => (apiKeyHeader settings apiKey).map some

/-- The headers of a request in terms of the header with the key. -/
lemma filteredRequestHeadersFromRaw_eq :
    filteredRequestHeadersFromRaw settings rawHeaders = settings.keyHeader?.map fun key? =>
      ((filterRawHeaders rawHeaders requestOnlyHeaders).filter fun h =>
        ∀ key ∈ key?, lowerBytes h.1 ≠ lowerBytes key.1) ++ key?.toList := by
  rw [Settings.keyHeader?]
  cases hkey : settings.apiKey? with
  | none => simp [filteredRequestHeadersFromRaw_of_none hkey]
  | some apiKey =>
      rw [filteredRequestHeadersFromRaw_of_some hkey]
      cases hheader : apiKeyHeader settings apiKey <;> simp [hheader]

/-- A client header that is forwarded. -/
lemma mem_filterRawHeaders {extraSkip : List Bytes} :
    h ∈ filterRawHeaders rawHeaders extraSkip ↔
      h ∈ rawHeaders ∧ lowerBytes h.1 ∉ skipSet rawHeaders extraSkip := by
  simp [filterRawHeaders]

/-- **The headers that are forwarded**: the one with the key, and those of the client
that are neither left out nor in its place. -/
theorem mem_filteredRequestHeadersFromRaw
    (hheaders : filteredRequestHeadersFromRaw settings rawHeaders = some headers) :
    ∃ key?, settings.keyHeader? = some key? ∧ ∀ h, h ∈ headers ↔
      h ∈ key? ∨ (h ∈ rawHeaders ∧ lowerBytes h.1 ∉ skipSet rawHeaders requestOnlyHeaders ∧
        ∀ key ∈ key?, lowerBytes h.1 ≠ lowerBytes key.1) := by
  rw [filteredRequestHeadersFromRaw_eq] at hheaders
  obtain ⟨key?, hkey, rfl⟩ := Option.map_eq_some_iff.mp hheaders
  refine ⟨key?, hkey, fun h => ?_⟩
  rw [List.mem_append, List.mem_filter, mem_filterRawHeaders, Option.mem_toList, or_comm,
    and_assoc, decide_eq_true_iff, Option.mem_def]

/-- **A property of every header that is forwarded**, in terms of the headers of the
client and of the one with the key. -/
theorem forall_mem_filteredRequestHeadersFromRaw {P : Bytes × Bytes → Prop} :
    (∀ headers, filteredRequestHeadersFromRaw settings rawHeaders = some headers →
        ∀ h ∈ headers, P h) ↔
      ∀ key?, settings.keyHeader? = some key? → (∀ key ∈ key?, P key) ∧
        ∀ h ∈ rawHeaders, lowerBytes h.1 ∉ skipSet rawHeaders requestOnlyHeaders →
          (∀ key ∈ key?, lowerBytes h.1 ≠ lowerBytes key.1) → P h := by
  constructor
  · intro hall key? hkey
    obtain ⟨headers, hheaders⟩ :
        ∃ headers, filteredRequestHeadersFromRaw settings rawHeaders = some headers := by
      rw [filteredRequestHeadersFromRaw_eq, hkey]
      exact ⟨_, rfl⟩
    obtain ⟨key?', hkey', hmem⟩ := mem_filteredRequestHeadersFromRaw hheaders
    obtain rfl := Option.some.inj (hkey.symm.trans hkey')
    constructor
    · exact fun key hkeyMem => hall headers hheaders key ((hmem key).mpr (.inl hkeyMem))
    · exact fun h hh hskip hname =>
        hall headers hheaders h ((hmem h).mpr (.inr ⟨hh, hskip, hname⟩))
  · intro hcond headers hheaders h hh
    obtain ⟨key?, hkey, hmem⟩ := mem_filteredRequestHeadersFromRaw hheaders
    obtain ⟨hkeyHeader, hclient⟩ := hcond key? hkey
    rcases (hmem h).mp hh with hkeyMem | ⟨hsent, hskip, hname⟩
    · exact hkeyHeader h hkeyMem
    · exact hclient h hsent hskip hname

/-! ### What is filtered -/

/-- The tokens of a `Connection` header: what stands between its commas, without the
blanks around it. -/
def connectionTokens (value : Bytes) : List Bytes :=
  ((value.splitOn 0x2c).map ByteStr.strip).filter (· ≠ [])

/-- A header is end-to-end: its name is neither hop-by-hop nor `host`, nor a token of a
`Connection` header anywhere in the list. -/
def IsEndToEnd (rawHeaders : RawHeaders) (h : Bytes × Bytes) : Prop :=
  lowerBytes h.1 ∉ hopByHopHeaders ∧ lowerBytes h.1 ≠ ascii "host" ∧
    ∀ c ∈ rawHeaders, lowerBytes c.1 = ascii "connection" →
      ∀ token ∈ connectionTokens c.2, lowerBytes token ≠ lowerBytes h.1

instance (rawHeaders : RawHeaders) : DecidablePred (IsEndToEnd rawHeaders) := fun h =>
  inferInstanceAs (Decidable (lowerBytes h.1 ∉ hopByHopHeaders ∧ lowerBytes h.1 ≠ ascii "host" ∧
    ∀ c ∈ rawHeaders, lowerBytes c.1 = ascii "connection" →
      ∀ token ∈ connectionTokens c.2, lowerBytes token ≠ lowerBytes h.1))

lemma splitHeaderTokens_eq (value : Bytes) :
    splitHeaderTokens value = (connectionTokens value).map lowerBytes := by
  rw [splitHeaderTokens, connectionTokens, List.filter_map, List.map_map]
  rfl

lemma mem_nominated {name : Bytes} : name ∈ nominated rawHeaders ↔
    ∃ c ∈ rawHeaders, lowerBytes c.1 = ascii "connection" ∧
      ∃ token ∈ connectionTokens c.2, lowerBytes token = name := by
  rw [nominated, List.mem_flatMap]
  refine exists_congr fun c => and_congr_right fun _ => ?_
  split_ifs with hc
  · rw [splitHeaderTokens_eq, List.mem_map]
    exact (and_iff_right hc).symm
  · simp [hc]

/-- A header goes upstream if it is end-to-end. -/
lemma notMem_skipSet_iff :
    lowerBytes h.1 ∉ skipSet rawHeaders requestOnlyHeaders ↔ IsEndToEnd rawHeaders h := by
  rw [skipSet, List.mem_append, List.mem_append, requestOnlyHeaders, List.mem_singleton,
    mem_nominated, not_or, not_or, and_assoc, IsEndToEnd]
  simp only [not_exists, not_and, ne_eq]

lemma filterRawHeaders_eq : filterRawHeaders rawHeaders requestOnlyHeaders
    = rawHeaders.filter fun h => IsEndToEnd rawHeaders h :=
  List.filter_congr fun _ _ => decide_eq_decide.mpr notMem_skipSet_iff

/-- The header with the key can be encoded: name, prefix and key are Latin-1. -/
def Settings.LatinKey (settings : Settings) : Prop :=
  ∀ apiKey ∈ settings.apiKey?, (∀ c ∈ settings.upstreamApiKeyHeader, c < 256) ∧
    (∀ c ∈ settings.upstreamApiKeyPrefix, c < 256) ∧ ∀ c ∈ apiKey, c < 256

/-- A header name is one of those that never go upstream. -/
def IsFiltered (name : Bytes) : Prop :=
  lowerBytes name ∈ hopByHopHeaders ∨ lowerBytes name = ascii "host"

/-- Nothing is nominated where no `Connection` header is. -/
lemma isEndToEnd_of_forall (hh : ¬IsFiltered h.1) (hall : ∀ c ∈ rawHeaders, ¬IsFiltered c.1) :
    IsEndToEnd rawHeaders h := by
  rw [IsFiltered, not_or] at hh
  refine ⟨hh.1, hh.2, fun c hc hconnection => absurd (.inl ?_) (hall c hc)⟩
  rw [hconnection]
  decide

lemma not_isFiltered_of_mem_filterRawHeaders
    (hh : h ∈ filterRawHeaders rawHeaders requestOnlyHeaders) : ¬IsFiltered h.1 := by
  rw [filterRawHeaders_eq, List.mem_filter, decide_eq_true_iff] at hh
  exact not_or.mpr ⟨hh.2.1, hh.2.2.1⟩

/-- Where nothing is to be filtered, nothing is. -/
lemma filterRawHeaders_of_forall (hall : ∀ c ∈ rawHeaders, ¬IsFiltered c.1) :
    filterRawHeaders rawHeaders requestOnlyHeaders = rawHeaders := by
  rw [filterRawHeaders_eq, List.filter_eq_self]
  exact fun h hh => decide_eq_true (isEndToEnd_of_forall (hall h hh) hall)

lemma exists_apiKeyHeader (hlatin : settings.LatinKey) (hkey : settings.apiKey? = some apiKey) :
    ∃ key, apiKeyHeader settings apiKey = some key := by
  obtain ⟨hname, hpre, hvalue⟩ := hlatin apiKey hkey
  obtain ⟨name, hname⟩ := encodeLatin1_isSome_iff.mpr hname
  have hall : ∀ c ∈ settings.upstreamApiKeyPrefix ++ apiKey, c < 256 := fun c hc =>
    (List.mem_append.mp hc).elim (hpre c) (hvalue c)
  obtain ⟨value, hvalue⟩ := encodeLatin1_isSome_iff.mpr hall
  exact ⟨(name, value), by rw [apiKeyHeader, hname, hvalue]; rfl⟩

/-- What the headers of a request become.

* `withoutKey`: those that are end-to-end, in their order and as they are;
* `withKey`: those of them that are not named like the header with the key, and that
  header after them;
* `once`: that is the only one of its name;
* `idempotent`: filtering them once more changes nothing, unless the header with the key
  has a name that never goes upstream. -/
structure HopByHopLaw (settings : Settings) (rawHeaders : RawHeaders) : Prop where
  withoutKey : settings.apiKey? = none → filteredRequestHeadersFromRaw settings rawHeaders
    = some (rawHeaders.filter fun h => IsEndToEnd rawHeaders h)
  withKey : ∀ apiKey, settings.apiKey? = some apiKey → ∃ key : Bytes × Bytes,
    decodeLatin1 key.1 = settings.upstreamApiKeyHeader ∧
      decodeLatin1 key.2 = settings.upstreamApiKeyPrefix ++ apiKey ∧
      filteredRequestHeadersFromRaw settings rawHeaders
        = some ((rawHeaders.filter fun h => IsEndToEnd rawHeaders h ∧
            lowerBytes h.1 ≠ lowerBytes key.1) ++ [key]) ∧
      ∀ headers, filteredRequestHeadersFromRaw settings rawHeaders = some headers →
        headers.filter (fun h => lowerBytes h.1 = lowerBytes key.1) = [key]
  idempotent : ∀ headers, filteredRequestHeadersFromRaw settings rawHeaders = some headers →
    (∀ apiKey, settings.apiKey? = some apiKey → ∀ name,
      decodeLatin1 name = settings.upstreamApiKeyHeader → ¬IsFiltered name) →
    filteredRequestHeadersFromRaw settings headers = some headers

/-- **Hop-by-hop headers** and those that are nominated are filtered, and nothing else;
the key is always there. -/
theorem hopByHopLaw (hlatin : settings.LatinKey) (rawHeaders : RawHeaders) :
    HopByHopLaw settings rawHeaders := by
  constructor
  case withoutKey =>
    intro hkey
    rw [filteredRequestHeadersFromRaw_of_none hkey, filterRawHeaders_eq]
  case withKey =>
    intro apiKey hkey
    obtain ⟨key, hheader⟩ := exists_apiKeyHeader hlatin hkey
    obtain ⟨hname, hvalue⟩ := apiKeyHeader_eq_some_iff.mp hheader
    have hfiltered := @filteredRequestHeadersFromRaw_of_some settings rawHeaders apiKey hkey
    rw [hheader, Option.map_some, filterRawHeaders_eq, List.filter_filter] at hfiltered
    refine ⟨key, hname, hvalue, ?_, fun headers hheaders => ?_⟩
    -- the headers of the client that are left, and the key
    · rw [hfiltered]
      simp only [Bool.decide_and, Bool.and_comm]
    -- only the key has its name
    · obtain rfl := Option.some.inj (hfiltered.symm.trans hheaders)
      rw [List.filter_append, List.filter_filter, List.filter_eq_nil_iff.mpr, List.nil_append,
        List.filter_singleton]
      · simp
      · intro h _
        simp only [Bool.and_eq_true, decide_eq_true_eq]
        rintro ⟨hsame, hother, -⟩
        exact hother hsame
  case idempotent =>
    intro headers hheaders hname
    -- what is filtered once is filtered again by nothing
    cases hkey : settings.apiKey? with
    | none =>
        rw [filteredRequestHeadersFromRaw_of_none hkey] at hheaders ⊢
        obtain rfl := Option.some.inj hheaders
        rw [filterRawHeaders_of_forall fun h => not_isFiltered_of_mem_filterRawHeaders]
    | some apiKey =>
        obtain ⟨key, hheader⟩ := exists_apiKeyHeader hlatin hkey
        rw [filteredRequestHeadersFromRaw_of_some hkey, hheader, Option.map_some] at hheaders ⊢
        obtain rfl := Option.some.inj hheaders
        have hkeyName := hname apiKey hkey key.1 (apiKeyHeader_eq_some_iff.mp hheader).1
        rw [@filterRawHeaders_of_forall (_ ++ [key])]
        · rw [List.filter_append, List.filter_filter]
          simp
        · intro h hh
          rcases List.mem_append.mp hh with hh | hh
          · exact not_isFiltered_of_mem_filterRawHeaders (List.mem_filter.mp hh).1
          · rwa [List.mem_singleton.mp hh]

/-- A client nominates the header with the key, and another one further up. -/
theorem hopByHopLaw_nominated :
    HopByHopLaw { upstreamApiKey := some (py "K"), upstreamApiKeyHeader := py "X-Api-Key" }
      [(ascii "X-A", ascii "1"), (ascii "Connection", ascii "x-api-key, x-A ,"),
        (ascii "x-api-key", ascii "mine"), (ascii "X-B", ascii "2")] := by
  refine hopByHopLaw (fun apiKey hkey => ?_) _
  obtain rfl : py "K" = apiKey := Option.some.inj hkey
  decide +kernel

end CodexResetProxy
