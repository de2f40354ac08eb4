import CodexResetProxy.Bridge.Request
import CodexResetProxy.Library.ByteStr

/-!
The URLs that requests go to (`build_upstream_url`, `_origin_path`, `_upstream_url`,
`build_upstream_ws_url`).

* `buildUpstreamUrl` starts from the path and the query that the ASGI server gives,
  `originPath` and `upstreamUrl` from the target of the request line.
* `OriginForm`: a target of path and query; `originPath_originForm`: it is kept as it
  stands.
* `buildUpstreamWsUrl_concat`: when an empty query makes a difference to the URL of the
  websocket.
-/

namespace CodexResetProxy

open PyStr ByteStr Url

/-! ### The reverse proxy -/

/-- `build_upstream_url`, of `raw_path`, `request.url.path` and `query_string`, with
`none` if it raises. The default for a missing `raw_path` is computed in any case. -/
def buildUpstreamUrl (settings : Settings) (rawPath? : Option Bytes) (urlPath : Option PyStr)
    (queryString : Option Bytes) : Option PyStr := do
  let default ← encodeAscii (← urlPath)
  let path := decodeLatin1 (rawPath?.getD default)
  let path := if path.head? = some 0x2f then path else 0x2f :: path
  let query := decodeLatin1 (queryString.getD [])
  let url := settings.upstreamBaseUrl ++ path
  return if query ≠ [] then url ++ 0x3f :: query else url

/-! ### Intercepted connections -/

/-- `_origin_path`, with `none` if it raises. -/
def originPath (rt : Runtime) (target : PyStr) : Option PyStr := do
  let parsed ← rt.urlsplit target
  return if parsed.scheme ≠ [] ∧ parsed.netloc ≠ [] then
    let path := if parsed.path ≠ [] then parsed.path else [0x2f]
    if parsed.query ≠ [] then path ++ 0x3f :: parsed.query else path
  else if target ≠ [] then target else [0x2f]

/-- `_path_matches`. -/
def pathMatches (settings : Settings) (path : PyStr) : Bool :=
  (cut 0x3f path).1 ∈ settings.interceptPaths

/-- `_upstream_url`. -/
def upstreamUrl (settings : Settings) (path : PyStr) : PyStr :=
  settings.upstreamBaseUrl ++ if path.head? = some 0x2f then path else 0x2f :: path

/-! ### Websockets -/

/-- The scheme of a websocket for one of HTTP. -/
def websocketScheme (scheme : PyStr) : Option PyStr :=
  if scheme = py "http" then some (py "ws")
  else if scheme = py "https" then some (py "wss")
  else if scheme = py "ws" ∨ scheme = py "wss" then some scheme
  else none

/-- The error for another scheme. -/
def invalidWebsocketUrl (scheme : PyStr) : BridgeError where
  statusCode := 500
  errorCode := "invalid_websocket_url"
  message := "cannot convert URL scheme to websocket: " ++ String.ofList (scheme.map Char.ofNat)

/-- `build_upstream_ws_url`. -/
def buildUpstreamWsUrl (rt : Runtime) (upstreamHttpUrl : PyStr) : Except Raised PyStr :=
  match rt.urlsplit upstreamHttpUrl with
  | none => .error (.exc (.other "ValueError"))
  | some parsed =>
      match websocketScheme parsed.scheme with
      | none => .error (.bridge (invalidWebsocketUrl parsed.scheme))
      | some scheme => .ok (urlunsplit { parsed with scheme := scheme })

/-! ### Targets in origin form -/

/-- A character of the path or the query of a URL. -/
def isTargetChar (c : UInt8) : Bool :=
  c = 0x21 ∨ (0x24 ≤ c ∧ c ≤ 0x3b) ∨ c = 0x3d ∨ (0x3f ≤ c ∧ c ≤ 0x5a) ∨ c = 0x5f ∨
    (0x61 ≤ c ∧ c ≤ 0x7a) ∨ c = 0x7e

/-- A target in origin form: a path, and a query if there is one, which may be
empty. -/
structure OriginForm where
  path : Bytes
  query : Option Bytes
  path_start : path.head? = some 0x2f
  path_chars : ∀ c ∈ path, isTargetChar c ∧ c ≠ 0x3f
  query_chars : ∀ q ∈ query, ∀ c ∈ q, isTargetChar c

/-- The target as it is sent. -/
def OriginForm.bytes (o : OriginForm) : Bytes :=
  o.path ++ match o.query with
    | none => []
    | some query => 0x3f :: query

/-- What the characters of a target are not. -/
lemma plain_of_isTargetChar {c : UInt8} (h : isTargetChar c) :
    0x20 < c.toNat ∧ c.toNat < 0x80 ∧ c.toNat ≠ 0x5b ∧ c.toNat ≠ 0x5d ∧ c.toNat ≠ 0x23 := by
  simp only [isTargetChar, Bool.decide_or, Bool.decide_and, Bool.or_eq_true, Bool.and_eq_true,
    decide_eq_true_eq, UInt8.le_iff_toNat_le, ← UInt8.toNat_inj, UInt8.reduceToNat] at h
  omega

variable {settings : Settings} {rt : Runtime} (o : OriginForm)

lemma OriginForm.isTargetChar_of_mem {c : UInt8} (hc : c ∈ o.bytes) : isTargetChar c := by
  rcases List.mem_append.mp hc with hc | hc
  · exact (o.path_chars c hc).1
  · cases hquery : o.query with
    | none => simp [hquery] at hc
    | some query =>
        rw [hquery] at hc
        rcases List.mem_cons.mp hc with rfl | hc
        · rfl
        · exact o.query_chars query hquery c hc

/-- The text of a path starts with a slash. -/
lemma OriginForm.exists_path : ∃ s, decodeLatin1 o.path = 0x2f :: s := by
  obtain ⟨t, ht⟩ := List.head?_eq_some_iff.mp o.path_start
  exact ⟨decodeLatin1 t, by rw [ht]; rfl⟩

/-- The text of a target. -/
lemma OriginForm.decodeLatin1_bytes : decodeLatin1 o.bytes = decodeLatin1 o.path ++
    match o.query with
    | none => []
    | some query => 0x3f :: decodeLatin1 query := by
  rw [OriginForm.bytes, decodeLatin1, List.map_append]
  cases o.query <;> rfl

/-- **A target in origin form** is kept as it stands. -/
theorem originPath_originForm :
    originPath rt (decodeLatin1 o.bytes) = some (decodeLatin1 o.bytes) := by
  obtain ⟨s, hs⟩ : ∃ s, decodeLatin1 o.bytes = 0x2f :: s := by
    obtain ⟨s, hs⟩ := o.exists_path
    exact ⟨_, by rw [o.decodeLatin1_bytes, hs]; rfl⟩
  have hplain : ∀ c ∈ s, 0x20 < c ∧ c < 0x80 ∧ c ≠ 0x5b ∧ c ≠ 0x5d := by
    intro c hc
    have hmem : c ∈ decodeLatin1 o.bytes := hs ▸ List.mem_cons_of_mem _ hc
    obtain ⟨b, hb, rfl⟩ := List.mem_map.mp hmem
    obtain ⟨hlow, hhigh, hopen, hclose, -⟩ := plain_of_isTargetChar (o.isTargetChar_of_mem hb)
    exact ⟨hlow, hhigh, hopen, hclose⟩
  obtain ⟨u, hu, hscheme⟩ := urlsplit_slash rt.bracketedHost rt.nfkcNetloc hplain
  rw [hs, originPath, Runtime.urlsplit, hu]
  simp [hscheme]

lemma OriginForm.notMem_path {c : ℕ} (hc : c = 0x3f ∨ c = 0x23) : c ∉ decodeLatin1 o.path := by
  intro hmem
  obtain ⟨b, hb, rfl⟩ := List.mem_map.mp hmem
  obtain ⟨hchar, hquestion⟩ := o.path_chars b hb
  rcases hc with hc | hc
  · exact hquestion (UInt8.toNat_inj.mp hc)
  · exact (plain_of_isTargetChar hchar).2.2.2.2 hc

/-- The path of a target is what comes before a question mark. -/
lemma pathMatches_originForm : pathMatches settings (decodeLatin1 o.bytes) = true ↔
    decodeLatin1 o.path ∈ settings.interceptPaths := by
  have hcut : (cut 0x3f (decodeLatin1 o.bytes)).1 = decodeLatin1 o.path := by
    have hpath := o.notMem_path (.inl rfl)
    rw [o.decodeLatin1_bytes]
    cases o.query with
    | none => rw [List.append_nil, cut_of_notMem hpath]
    | some query => rw [cut_append hpath]
  rw [pathMatches, hcut, decide_eq_true_iff]

/-- A target is appended to the base URL. -/
lemma upstreamUrl_originForm : upstreamUrl settings (decodeLatin1 o.bytes)
    = settings.upstreamBaseUrl ++ decodeLatin1 o.bytes := by
  obtain ⟨s, hs⟩ := o.exists_path
  rw [upstreamUrl, o.decodeLatin1_bytes, hs]
  rfl

/-- `build_upstream_url` appends the target as well, but not an empty query. -/
lemma buildUpstreamUrl_originForm {urlPath : Option PyStr} :
    buildUpstreamUrl settings (some o.path) urlPath (some (o.query.getD []))
      = (urlPath.bind encodeAscii).map fun _ => settings.upstreamBaseUrl ++
          if o.query = some [] then decodeLatin1 o.path else decodeLatin1 o.bytes := by
  obtain ⟨s, hs⟩ := o.exists_path
  rw [buildUpstreamUrl]
  cases urlPath with
  | none => rfl
  | some path =>
      simp only [Option.bind_some, Option.bind_eq_bind, Option.getD_some, hs, List.head?_cons,
        if_true, o.decodeLatin1_bytes]
      cases encodeAscii path with
      | none => rfl
      | some ascii =>
          match hquery : o.query with
          | none => simp [decodeLatin1]
          | some [] => simp [decodeLatin1]
          | some (c :: query) => simp [decodeLatin1]

/-! ### An empty query -/

/-- **An empty query** changes the URL of a websocket just when there is a query or a
fragment in front of it. -/
theorem buildUpstreamWsUrl_concat {url : PyStr} (h : ∃ c ∈ url, 0x20 < c) :
    (∀ e, buildUpstreamWsUrl rt url = .error e → buildUpstreamWsUrl rt (url ++ [0x3f]) = .error e) ∧
      ∀ ws, buildUpstreamWsUrl rt url = .ok ws →
        ∃ ws', buildUpstreamWsUrl rt (url ++ [0x3f]) = .ok ws' ∧
          (ws' = ws ↔ 0x3f ∉ url ∧ 0x23 ∉ url) := by
  have hsplit := urlsplit_concat rt.bracketedHost rt.nfkcNetloc h
  rw [buildUpstreamWsUrl, buildUpstreamWsUrl, Runtime.urlsplit, Runtime.urlsplit, hsplit]
  cases hurl : urlsplit rt.bracketedHost rt.nfkcNetloc url with
  | none => simp
  | some u =>
      rw [Option.map_some]
      dsimp only
      by_cases hfragment : 0x23 ∈ url
      -- the question mark goes to the fragment
      · rw [if_pos hfragment]
        dsimp only
        cases hscheme : websocketScheme u.scheme with
        | none => simp
        | some scheme =>
            have hne := urlunsplit_fragment_ne { u with scheme } 0x3f
            simpa [hfragment] using hne
      rw [if_neg hfragment]
      by_cases hquery : 0x3f ∈ url
      -- it goes to the query
      · rw [if_pos hquery]
        dsimp only
        cases hscheme : websocketScheme u.scheme with
        | none => simp
        | some scheme =>
            have hne := urlunsplit_query_ne { u with scheme } 0x3f
            simpa [hquery] using hne
      -- it is an empty query, which is dropped
      · rw [if_neg hquery]
        cases hscheme : websocketScheme u.scheme with
        | none => simp
        | some scheme => simp [hquery, hfragment]

end CodexResetProxy
