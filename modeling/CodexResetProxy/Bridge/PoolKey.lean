import Mathlib.Data.List.Infix
import Mathlib.Data.List.Lex
import Mathlib.Data.Prod.Lex
import CodexResetProxy.Library.ByteStr
import CodexResetProxy.Library.JsonDump
import CodexResetProxy.Settings

/-!
The key under which a connection is pooled (`websocket_headers`,
`_is_websocket_pool_identity_header`, `websocket_pool_key`).

The key is the URL and a digest of the identity headers, lower-cased names with
their values, sorted and written as JSON. Sorting keeps the multiset, JSON keeps
the list and a digest without collisions keeps the text, so the key keeps the
identity (`websocketPoolKey_inj`), as long as header text is Latin-1, which
`websocket_headers` makes it (`latin1_websocketHeaders`); and it depends on nothing
else (`websocketPoolKey_congr`): **the key is exactly the identity**
(`poolKeyLaw`).
-/

namespace CodexResetProxy

open PyStr

/-- A `bytes` literal of ASCII. -/
def ascii (s : String) : List UInt8 := (py s).map UInt8.ofNat

/-- `bytes.lower`. -/
def lowerBytes (b : List UInt8) : List UInt8 :=
  b.map fun c => if 0x41 ≤ c ∧ c ≤ 0x5a then c + 0x20 else c

/-- `WEBSOCKET_REQUEST_SKIP_HEADERS`. -/
def websocketRequestSkipHeaders : List (List UInt8) :=
  [ascii "accept", ascii "accept-encoding", ascii "content-length", ascii "content-type"]

/-- `websocket_headers`. -/
def websocketHeaders (rawHeaders : List (List UInt8 × List UInt8)) : List (PyStr × PyStr) :=
  (rawHeaders.filter fun h => lowerBytes h.1 ∉ websocketRequestSkipHeaders).map fun h =>
    (decodeLatin1 h.1, decodeLatin1 h.2)

/-- Header text of Latin-1. -/
def Latin1 (headers : List (PyStr × PyStr)) : Prop :=
  ∀ h ∈ headers, (∀ c ∈ h.1, c < 0x100) ∧ ∀ c ∈ h.2, c < 0x100

lemma latin1_websocketHeaders (rawHeaders : List (List UInt8 × List UInt8)) :
    Latin1 (websocketHeaders rawHeaders) := by
  intro h hh
  obtain ⟨raw, _, rfl⟩ := List.mem_map.mp hh
  exact ⟨fun c hc => lt_of_mem_decodeLatin1 hc, fun c hc => lt_of_mem_decodeLatin1 hc⟩

/-- `_is_websocket_pool_identity_header`. -/
def isWebsocketPoolIdentityHeader (name : PyStr) (configuredKeyHeaders : List PyStr)
    (configuredKeyHeader : PyStr) : Bool :=
  if name = configuredKeyHeader ∨ name ∈ configuredKeyHeaders then true
  else py "auth" <:+: name ∨ py "token" <:+: name

/-- The identity headers of a header list: lower-cased names and their values. -/
def identityHeaders (cfg : Config) (headers : List (PyStr × PyStr)) : List (PyStr × PyStr) :=
  let keyHeaderNames := cfg.settings.websocketPoolKeyHeaders.map cfg.runtime.lower
  let configuredKeyHeader := cfg.runtime.lower cfg.settings.upstreamApiKeyHeader
  (headers.map fun h => (cfg.runtime.lower h.1, h.2)).filter fun h =>
    isWebsocketPoolIdentityHeader h.1 keyHeaderNames configuredKeyHeader

/-- The order of `tuple[str, str]`. -/
def pairLe (p q : PyStr × PyStr) : Bool := p.1 < q.1 ∨ (p.1 = q.1 ∧ p.2 ≤ q.2)

/-- `WebSocketPoolKey`. -/
structure WebSocketPoolKey where
  url : PyStr
  identityDigest : PyStr
  deriving DecidableEq

/-- The JSON of the sorted identity headers. -/
def digestInput (cfg : Config) (headers : List (PyStr × PyStr)) : PyStr :=
  Json.dumpsPairs ((identityHeaders cfg headers).mergeSort pairLe)

/-- `websocket_pool_key`. The JSON is ASCII, so it can be encoded
(`digestInput_encodes`). -/
def websocketPoolKey (cfg : Config) (url : PyStr) (headers : List (PyStr × PyStr)) :
    WebSocketPoolKey :=
  { url := url
    identityDigest := cfg.runtime.sha256 ((encodeUtf8 (digestInput cfg headers)).getD .empty) }

/-! ### The key keeps the identity -/

lemma plain_of_mem_identityHeaders {cfg : Config} {headers : List (PyStr × PyStr)}
    (h : Latin1 headers) : ∀ p ∈ identityHeaders cfg headers, Json.Plain p := by
  intro p hp
  obtain ⟨q, hq, rfl⟩ := List.mem_map.mp (List.mem_filter.mp hp).1
  refine ⟨fun c hc => ?_, fun c hc => ?_⟩
  · have := cfg.runtime.lt_of_mem_lower (h q hq).1 c hc
    omega
  · have := (h q hq).2 c hc
    omega

lemma digestInput_encodes (cfg : Config) (headers : List (PyStr × PyStr)) :
    ∃ b, encodeUtf8 (digestInput cfg headers) = some b := by
  refine Option.isSome_iff_exists.mp ((encodeUtf8_isSome_iff _).mpr fun c hc => ?_)
  have := Json.lt_of_mem_dumpsPairs hc
  exact Or.inl (by omega)

/-- Header lists whose identities are written alike have the same identity. -/
lemma digestInput_inj {cfg : Config} {headers headers' : List (PyStr × PyStr)}
    (h : Latin1 headers) (h' : Latin1 headers')
    (heq : digestInput cfg headers = digestInput cfg headers') :
    (identityHeaders cfg headers).Perm (identityHeaders cfg headers') := by
  have hplain : ∀ {hs : List (PyStr × PyStr)}, Latin1 hs →
      ∀ p ∈ (identityHeaders cfg hs).mergeSort pairLe, Json.Plain p := by
    intro hs hlatin p hp
    exact plain_of_mem_identityHeaders hlatin p ((List.mergeSort_perm _ _).mem_iff.mp hp)
  have hsort := Json.dumpsPairs_injective (hplain h) (hplain h') heq
  calc (identityHeaders cfg headers).Perm ((identityHeaders cfg headers).mergeSort pairLe) :=
        (List.mergeSort_perm _ _).symm
    _ = (identityHeaders cfg headers').mergeSort pairLe := hsort
    List.Perm _ (identityHeaders cfg headers') := List.mergeSort_perm _ _

/-- **The key keeps the identity**: with a digest without collisions, equal keys
mean equal URLs and the same multiset of identity headers. -/
theorem websocketPoolKey_inj {cfg : Config} (hsha : Function.Injective cfg.runtime.sha256)
    {url url' : PyStr} {headers headers' : List (PyStr × PyStr)} (h : Latin1 headers)
    (h' : Latin1 headers')
    (heq : websocketPoolKey cfg url headers = websocketPoolKey cfg url' headers') :
    url = url' ∧ (identityHeaders cfg headers).Perm (identityHeaders cfg headers') := by
  obtain ⟨hurl, hdigest⟩ := WebSocketPoolKey.mk.inj heq
  refine ⟨hurl, digestInput_inj h h' ?_⟩
  obtain ⟨b, hb⟩ := digestInput_encodes cfg headers
  obtain ⟨b', hb'⟩ := digestInput_encodes cfg headers'
  have hbytes : b = b' := by simpa [hb, hb'] using hsha hdigest
  have hdecode := decodeUtf8_encodeUtf8 hb
  rw [hbytes, decodeUtf8_encodeUtf8 hb'] at hdecode
  exact (Option.some.inj hdecode).symm

/-! ### The key is exactly the identity -/

/-- The name of an identity header, in lower case: the key header, one of the names that
are configured, or one that says `auth` or `token`. -/
def IsIdentityName (cfg : Config) (name : PyStr) : Prop :=
  name = cfg.runtime.lower cfg.settings.upstreamApiKeyHeader ∨
    (∃ k ∈ cfg.settings.websocketPoolKeyHeaders, name = cfg.runtime.lower k) ∨
    py "auth" <:+: name ∨ py "token" <:+: name

instance (cfg : Config) : DecidablePred (IsIdentityName cfg) := fun name =>
  inferInstanceAs (Decidable (name = cfg.runtime.lower cfg.settings.upstreamApiKeyHeader ∨
    (∃ k ∈ cfg.settings.websocketPoolKeyHeaders, name = cfg.runtime.lower k) ∨
    py "auth" <:+: name ∨ py "token" <:+: name))

/-- A header list with its names in lower case. -/
def lowerNames (cfg : Config) (headers : List (PyStr × PyStr)) : List (PyStr × PyStr) :=
  headers.map fun h => (cfg.runtime.lower h.1, h.2)

/-- The identity of a header list: names in lower case with their values. -/
def identity (cfg : Config) (headers : List (PyStr × PyStr)) : List (PyStr × PyStr) :=
  (lowerNames cfg headers).filter fun h => IsIdentityName cfg h.1

variable {cfg : Config} {url url' : PyStr} {headers headers' : List (PyStr × PyStr)}

lemma isWebsocketPoolIdentityHeader_iff (name : PyStr) :
    isWebsocketPoolIdentityHeader name
        (cfg.settings.websocketPoolKeyHeaders.map cfg.runtime.lower)
        (cfg.runtime.lower cfg.settings.upstreamApiKeyHeader) = true ↔
      IsIdentityName cfg name := by
  have hnames : name ∈ cfg.settings.websocketPoolKeyHeaders.map cfg.runtime.lower ↔
      ∃ k ∈ cfg.settings.websocketPoolKeyHeaders, name = cfg.runtime.lower k := by
    rw [List.mem_map]
    exact exists_congr fun k => and_congr_right fun _ => eq_comm
  rw [isWebsocketPoolIdentityHeader, IsIdentityName, ← hnames, ← or_assoc]
  split_ifs with h
  · exact iff_of_true rfl (.inl h)
  · rw [decide_eq_true_iff, or_iff_right h]

lemma identityHeaders_eq : identityHeaders cfg headers = identity cfg headers := by
  refine List.filter_congr fun h _ => Bool.eq_iff_iff.mpr ?_
  rw [isWebsocketPoolIdentityHeader_iff, decide_eq_true_iff]

/-- Pairs of strings are in lexicographic order. -/
lemma pairLe_iff {p q : PyStr × PyStr} : pairLe p q = true ↔ toLex p ≤ toLex q := by
  rw [pairLe, Prod.Lex.le_iff, decide_eq_true_iff]
  rfl

lemma pairwise_sorted (l : List (PyStr × PyStr)) :
    (l.mergeSort pairLe).Pairwise fun p q => pairLe p q = true := by
  refine List.pairwise_mergeSort (fun p q r hpq hqr => ?_) (fun p q => ?_) l
  · exact pairLe_iff.mpr ((pairLe_iff.mp hpq).trans (pairLe_iff.mp hqr))
  · rw [Bool.or_eq_true, pairLe_iff, pairLe_iff]
    exact le_total _ _

/-- **Sorting forgets the order** and nothing else. -/
theorem sorted_eq_of_perm {l l' : List (PyStr × PyStr)} (h : l.Perm l') :
    l.mergeSort pairLe = l'.mergeSort pairLe := by
  refine List.Perm.eq_of_pairwise (fun p q _ _ hpq hqp => ?_) (pairwise_sorted l)
    (pairwise_sorted l') (((List.mergeSort_perm l _).trans h).trans (List.mergeSort_perm l' _).symm)
  exact toLex.injective (le_antisymm (pairLe_iff.mp hpq) (pairLe_iff.mp hqp))

/-- **The key depends on nothing else** than the URL and the identity. -/
theorem websocketPoolKey_congr
    (h : (identityHeaders cfg headers).Perm (identityHeaders cfg headers')) :
    websocketPoolKey cfg url headers = websocketPoolKey cfg url headers' := by
  rw [websocketPoolKey, websocketPoolKey, digestInput, digestInput, sorted_eq_of_perm h]

/-- What the key tells of a request.

* `exact`: two requests have the same key if and only if they go to the same URL with
  the same identity, up to the order of its headers;
* `order`, `letterCase`, `others`: the order of the headers, the case of their names and
  the headers that are no identity headers make no difference;
* `multiplicity`: how often an identity header is there does. -/
structure PoolKeyLaw (cfg : Config) (url url' : PyStr) (headers headers' : List (PyStr × PyStr)) :
    Prop where
  exact : websocketPoolKey cfg url headers = websocketPoolKey cfg url' headers' ↔
    url = url' ∧ (identity cfg headers).Perm (identity cfg headers')
  order : headers.Perm headers' →
    websocketPoolKey cfg url headers = websocketPoolKey cfg url headers'
  letterCase : lowerNames cfg headers = lowerNames cfg headers' →
    websocketPoolKey cfg url headers = websocketPoolKey cfg url headers'
  others : ∀ h before after, headers = before ++ h :: after →
    ¬IsIdentityName cfg (cfg.runtime.lower h.1) →
    websocketPoolKey cfg url headers = websocketPoolKey cfg url (before ++ after)
  multiplicity : ∀ name value, IsIdentityName cfg name →
    (lowerNames cfg headers).count (name, value) ≠ (lowerNames cfg headers').count (name, value) →
    websocketPoolKey cfg url headers ≠ websocketPoolKey cfg url' headers'

/-- **The key is exactly the identity.** -/
theorem poolKeyLaw (hsha : Function.Injective cfg.runtime.sha256) (h : Latin1 headers)
    (h' : Latin1 headers') : PoolKeyLaw cfg url url' headers headers' := by
  constructor
  case exact =>
    rw [← identityHeaders_eq, ← identityHeaders_eq]
    constructor
    · exact websocketPoolKey_inj hsha h h'
    · rintro ⟨rfl, hperm⟩
      exact websocketPoolKey_congr hperm
  case order =>
    intro hperm
    exact websocketPoolKey_congr ((hperm.map _).filter _)
  case letterCase =>
    intro hnames
    have hidentity : identity cfg headers = identity cfg headers' := by
      rw [identity, identity, hnames]
    rw [← identityHeaders_eq, ← identityHeaders_eq] at hidentity
    exact websocketPoolKey_congr (.of_eq hidentity)
  case others =>
    rintro x before after rfl hx
    refine websocketPoolKey_congr (.of_eq ?_)
    rw [identityHeaders_eq, identityHeaders_eq]
    simp [identity, lowerNames, hx]
  case multiplicity =>
    intro name value hname hcount heq
    have hperm := (websocketPoolKey_inj hsha h h' heq).2
    rw [identityHeaders_eq, identityHeaders_eq] at hperm
    -- headers of the identity are not filtered out of the count
    have hfilter : ∀ headers, (identity cfg headers).count (name, value)
        = (lowerNames cfg headers).count (name, value) := fun headers =>
      List.count_filter (by simpa using hname)
    exact hcount (by rw [← hfilter, ← hfilter, hperm.count_eq])

/-- The digests of the sample are told apart from each other, and by their first digit
from what the other inputs get. -/
lemma sampleSha256_injective : Function.Injective sampleSha256 := by
  have hdigests : ∀ p ∈ sampleDigests, ∀ q ∈ sampleDigests, py p.2 = py q.2 → p.1 = q.1 := by
    decide +kernel
  have hhead : ∀ p ∈ sampleDigests, (py p.2).head? ≠ some 0x78 := by decide +kernel
  have hbytes : ∀ a b : ByteArray, 0x78 :: a.data.toList.map UInt8.toNat
      = 0x78 :: b.data.toList.map UInt8.toNat → a = b := by
    intro a b h
    have hlist := List.map_injective_iff.mpr (fun _ _ => UInt8.toNat.inj) (List.cons.inj h).2
    exact ByteArray.ext (Array.toList_inj.mp hlist)
  intro a b h
  rw [sampleSha256, sampleSha256] at h
  split at h
  · rename_i p hp
    split at h
    · -- two inputs with a digest
      rename_i q hq
      have hinput := hdigests p (List.mem_of_find?_eq_some hp) q (List.mem_of_find?_eq_some hq) h
      have ha : p.1.toUTF8 = a := by simpa using List.find?_some hp
      have hb : q.1.toUTF8 = b := by simpa using List.find?_some hq
      rw [← ha, ← hb, hinput]
    · exact absurd (congrArg List.head? h) (hhead p (List.mem_of_find?_eq_some hp))
  · split at h
    · rename_i q hq
      exact absurd (congrArg List.head? h).symm (hhead q (List.mem_of_find?_eq_some hq))
    · exact hbytes a b h

/-- A cookie is listed, and its name is in any case; the order does not matter. The digest
is that of the two headers it lists. -/
theorem poolKeyLaw_cookie :
    PoolKeyLaw sampleConfig (py "wss://a") (py "wss://a")
      [(py "Cookie", py "a=b"), (py "X-Token", [0xe9])]
      [(py "x-token", [0xe9]), (py "COOKIE", py "a=b")] :=
  poolKeyLaw sampleSha256_injective (by unfold Latin1; decide +kernel)
    (by unfold Latin1; decide +kernel)

end CodexResetProxy
