import CodexResetProxy.App
import CodexResetProxy.Environment
import CodexResetProxy.Library.UrlAuthority
import CodexResetProxy.Mitm.Routing

/-!
No request changes the authority that the proxy talks to.

* `SameAuthority`: user-info, host and port of a URL are those of the base URL.
* `upstreamUrl_authority`, `buildUpstreamUrl_authority`, `buildUpstreamWsUrl_authority`: the
  URLs that the two front ends build.
* `keepsAuthority`: **every URL that a request or a connection goes to**.
-/

namespace CodexResetProxy

open PyStr ByteStr Url Retry

/-- The URL has the authority of the base URL, and this scheme, whether it is split as
`urllib` does or by the expression of RFC 3986. -/
structure SameAuthority (rt : Runtime) (base : SplitResult) (scheme url : PyStr) : Prop where
  split : ∃ u, rt.urlsplit url = some u ∧ u.scheme = scheme ∧ u.netloc = base.netloc ∧
    u.userinfo = base.userinfo ∧ u.hostname rt.lower = base.hostname rt.lower ∧ u.port = base.port
  components : (Rfc3986.components (clean url)).scheme.map (·.map lowerAscii) = some scheme ∧
    (Rfc3986.components (clean url)).authority = some base.netloc

variable {rt : Runtime} {cfg : Config} {settings : Settings} {base u : SplitResult}
  {scheme url path : PyStr}

/-! ### The URLs -/

/-- What is promised of a URL that can be split. -/
lemma sameAuthority_of_urlsplit (h : rt.urlsplit url = some u) (hscheme : u.scheme ≠ [])
    (hnetloc : u.netloc ≠ []) (hbase : u.netloc = base.netloc) :
    SameAuthority rt base u.scheme url := by
  have hcomponents := components_eq h hscheme hnetloc
  rw [hbase] at hcomponents
  refine ⟨⟨u, h, rfl, hbase, ?_, ?_, ?_⟩, hcomponents⟩
  · rw [SplitResult.userinfo, SplitResult.userinfo, hbase]
  · rw [SplitResult.hostname, SplitResult.hostname, SplitResult.hostinfo, SplitResult.hostinfo,
      hbase]
  · rw [SplitResult.port, SplitResult.port, SplitResult.hostinfo, SplitResult.hostinfo, hbase]

/-- What is checked of the base URL. -/
lemma of_validateUpstreamBaseUrl
    (h : validateUpstreamBaseUrl rt settings.upstreamBaseUrl = .ok base) :
    rt.urlsplit settings.upstreamBaseUrl = some base ∧
      base.scheme ∈ [py "http", py "https"] ∧ base.netloc ≠ [] := by
  rw [validateUpstreamBaseUrl] at h
  split at h
  · cases h
  · rename_i parsed hparsed
    split_ifs at h with hbad
    cases h
    push Not at hbad
    exact ⟨hparsed, hbad⟩

lemma scheme_ne_nil (h : base.scheme ∈ [py "http", py "https"]) : base.scheme ≠ [] := by
  intro hempty
  rw [hempty] at h
  exact absurd h (by decide)

section Base

variable (hbase : validateUpstreamBaseUrl rt settings.upstreamBaseUrl = .ok base)

include hbase

/-- A path behind the base URL. -/
lemma sameAuthority_append (path : PyStr) :
    SameAuthority rt base base.scheme (settings.upstreamBaseUrl ++ 0x2f :: path) := by
  obtain ⟨hsplit, hscheme, hnetloc⟩ := of_validateUpstreamBaseUrl hbase
  have hne := scheme_ne_nil hscheme
  obtain ⟨v, hv, hs, hn⟩ := urlsplit_append hsplit hne hnetloc path
  rw [← hs]
  exact sameAuthority_of_urlsplit hv (hs ▸ hne) (hn ▸ hnetloc) hn

/-- **The URL of an intercepted request**, whatever its target is. -/
theorem upstreamUrl_authority (path : PyStr) :
    SameAuthority rt base base.scheme (upstreamUrl settings path) := by
  rw [upstreamUrl]
  split_ifs with hslash
  · obtain ⟨t, ht⟩ := List.head?_eq_some_iff.mp hslash
    rw [ht]
    exact sameAuthority_append hbase t
  · exact sameAuthority_append hbase path

/-- **The URL of a request to the reverse proxy**, whatever its path and query are. -/
theorem buildUpstreamUrl_authority {rawPath : Option Bytes} {urlPath : Option PyStr}
    {queryString : Option Bytes}
    (h : buildUpstreamUrl settings rawPath urlPath queryString = some url) :
    SameAuthority rt base base.scheme url := by
  obtain ⟨t, rfl⟩ : ∃ t, url = settings.upstreamBaseUrl ++ 0x2f :: t := by
    obtain ⟨decoded, -, h⟩ := Option.bind_eq_some_iff.mp h
    obtain ⟨default, -, h⟩ := Option.bind_eq_some_iff.mp h
    dsimp only at h
    obtain ⟨path, hpath⟩ : ∃ path, (if (decodeLatin1 (rawPath.getD default)).head? = some 0x2f then
        decodeLatin1 (rawPath.getD default) else 0x2f :: decodeLatin1 (rawPath.getD default))
          = 0x2f :: path := by
      split_ifs with hslash
      · exact List.head?_eq_some_iff.mp hslash
      · exact ⟨_, rfl⟩
    rw [hpath] at h
    obtain rfl := Option.some.inj h
    split_ifs
    · exact ⟨path ++ 0x3f :: decodeLatin1 (queryString.getD []), by simp⟩
    · exact ⟨path, rfl⟩
  exact sameAuthority_append hbase t

/-- **The URL of a websocket**, for a URL with the authority of the base URL. -/
theorem buildUpstreamWsUrl_authority {ws : PyStr} (hurl : SameAuthority rt base base.scheme url)
    (h : buildUpstreamWsUrl rt url = .ok ws) :
    ∃ scheme, websocketScheme base.scheme = some scheme ∧ SameAuthority rt base scheme ws := by
  obtain ⟨-, hscheme, hnetloc⟩ := of_validateUpstreamBaseUrl hbase
  obtain ⟨u, hu, hs, hn, -⟩ := hurl.split
  rw [buildUpstreamWsUrl, hu] at h
  dsimp only at h
  rw [hs] at h
  have hne : u.scheme ≠ [] := hs ▸ scheme_ne_nil hscheme
  -- an accepted base URL has one of two schemes
  have hwebsocket : websocketScheme base.scheme = some (py "ws") ∨
      websocketScheme base.scheme = some (py "wss") := by
    rcases List.mem_cons.mp hscheme with heq | heq
    · exact .inl (by rw [heq]; decide)
    · exact .inr (by rw [List.mem_singleton.mp heq]; decide)
  have hchars : ∀ {scheme : PyStr}, websocketScheme base.scheme = some scheme →
      (∃ c s, scheme = c :: s ∧ isLetter c) ∧ (∀ c ∈ scheme, isSchemeChar c) ∧
        scheme.map lowerAscii = scheme := by
    intro scheme heq
    rcases hwebsocket with hw | hw
    · obtain rfl := Option.some.inj (hw.symm.trans heq)
      exact ⟨⟨0x77, py "s", by decide, by decide⟩, by decide, by decide⟩
    · obtain rfl := Option.some.inj (hw.symm.trans heq)
      exact ⟨⟨0x77, py "ss", by decide, by decide⟩, by decide, by decide⟩
  cases hw : websocketScheme base.scheme with
  | none => simp [hw] at hwebsocket
  | some scheme =>
      rw [hw] at h
      obtain rfl := Except.ok.inj h
      obtain ⟨hletter, hscheme', hlower⟩ := hchars hw
      -- put together with the other scheme, it has the same netloc
      obtain ⟨v, hv, hvs, hvn⟩ := urlsplit_urlunsplit hu hne (hn ▸ hnetloc) hletter hscheme'
      have hvscheme : v.scheme = scheme := hvs.trans hlower
      obtain ⟨c, s, hcons, -⟩ := hletter
      have hsame := sameAuthority_of_urlsplit (show rt.urlsplit _ = some v from hv)
        (by simp [hvscheme, hcons]) (hvn.trans hn ▸ hnetloc) (hvn.trans hn)
      rw [hvscheme] at hsame
      exact ⟨scheme, rfl, hsame⟩

end Base

/-! ### What the front ends call -/

/-- The URL of a connection that is opened. -/
def ConnEvent.url? : ConnEvent → Option PyStr
  | .connect url _ => some url
  | _ => none

/-- The URLs that are called: of the requests, and of the connections that are opened. -/
def Served.urls (served : Served) : List PyStr :=
  served.requests.map UpstreamRequest.url ++
    served.attempts.flatMap fun log => log.events.filterMap ConnEvent.url?

/-- A URL that one of the front ends builds for a request. -/
inductive BuiltUrl (cfg : Config) : PyStr → Prop
  | intercepted {target path : PyStr} (h : originPath cfg.runtime target = some path) :
      BuiltUrl cfg (upstreamUrl cfg.settings path)
  | reverse {rawPath : Option Bytes} {urlPath : Option PyStr} {queryString : Option Bytes}
      {url : PyStr} (h : buildUpstreamUrl cfg.settings rawPath urlPath queryString = some url) :
      BuiltUrl cfg url

/-- The URL has the authority of the base URL, with its scheme or the one of a websocket. -/
def OnAuthority (cfg : Config) (base : SplitResult) (url : PyStr) : Prop :=
  SameAuthority cfg.runtime base base.scheme url ∨ ∃ scheme,
    websocketScheme base.scheme = some scheme ∧ SameAuthority cfg.runtime base scheme url

/-- What is promised of all URLs. -/
structure KeepsAuthority (cfg : Config) (base : SplitResult) : Prop where
  http : ∀ url, BuiltUrl cfg url → SameAuthority cfg.runtime base base.scheme url
  websocket : ∀ url, BuiltUrl cfg url → ∀ ws, buildUpstreamWsUrl cfg.runtime url = .ok ws →
    ∃ scheme, websocketScheme base.scheme = some scheme ∧ SameAuthority cfg.runtime base scheme ws
  reverse : ∀ up request, ∀ url ∈ (proxyEndpoint cfg up request).urls, OnAuthority cfg base url
  intercepted : ∀ up stream, ∀ url ∈ (handleMitmConnection cfg up stream).urls,
    OnAuthority cfg base url

variable {up : Upstream} {method : PyStr} {headers : RawHeaders} {body : Bytes}
  {headers? : Option RawHeaders}

/-- The requests of a call go to its URL. -/
lemma url_of_mem_requests {r : UpstreamRequest} (h : r ∈ requestsOf
    (openUpstreamRecorded cfg up.exchange up.response method url headers body).2) :
    r.url = url := by
  obtain ⟨n, -, hrequests, -⟩ := @requests_openUpstreamRecorded cfg up.exchange up.response method
    url headers body
  rw [hrequests] at h
  rw [List.eq_of_mem_replicate h]

/-- A connection that is used goes nowhere else. -/
lemma url?_useRecorded (payload : List (PyStr × Json)) (u : Usage) :
    (useRecorded cfg payload u).2.filterMap ConnEvent.url? = [] := by
  rw [useRecorded]
  cases u.send with
  | some e => rfl
  | none =>
      cases u.recv with
      | ok message => rfl
      | error e =>
          dsimp only
          cases firstMessageError? cfg e <;> rfl

/-- The connections of an attempt go to the URL of its request. -/
lemma url_of_mem_useSource {x : Course} {r : Request} {payload : List (PyStr × Json)}
    {source : Source}
    (h : url ∈ (useSource cfg x r payload source).2.filterMap ConnEvent.url?) : url = r.url := by
  cases source with
  | reused entry =>
      rw [useSource, url?_useRecorded] at h
      exact absurd h List.not_mem_nil
  | fresh i =>
      rw [useSource] at h
      cases hconnect : (x.fresh i).connect with
      | some e =>
          rw [hconnect] at h
          dsimp only at h
          split_ifs at h <;> simpa [ConnEvent.url?] using h
      | none =>
          rw [hconnect] at h
          dsimp only at h
          rw [List.filterMap_cons_some (by rfl), url?_useRecorded] at h
          exact List.mem_singleton.mp h

/-- The connections of a call go to its URL. -/
lemma url_of_mem_attempts {x : Course} {r : Request} {pool : Option Pool} {log : AttemptLog}
    (hlog : log ∈ (openBridgeRecorded cfg x r pool).2.2)
    (h : url ∈ log.events.filterMap ConnEvent.url?) : url = r.url := by
  have hstep : ∀ k s, ∀ log ∈ (attemptBridge cfg x r pool.isSome k s).2.2,
      ∀ url ∈ log.events.filterMap ConnEvent.url?, url = r.url := by
    intro k s log hlog url hurl
    rw [attemptBridge] at hlog
    split at hlog
    · exact absurd hlog List.not_mem_nil
    · exact absurd hlog List.not_mem_nil
    · obtain rfl := List.mem_singleton.mp hlog
      exact url_of_mem_useSource hurl
  have hall := forall_mem_record_run hstep cfg.settings.upstreamMaxAttempts 1
    ⟨pool.getD .empty, 0⟩ [] (firstMessageTimeout cfg) (by simp)
  refine hall log ?_ url h
  rw [openBridgeRecorded] at hlog
  cases hrun : run (recorded (attemptBridge cfg x r pool.isSome)) cfg.settings.upstreamMaxAttempts 1
      (⟨pool.getD .empty, 0⟩, []) (firstMessageTimeout cfg) with
  | mk outcome p =>
      rw [hrun] at hlog
      cases outcome <;> exact hlog

/-- The connections of a bridge go to the URL of its websocket. -/
lemma ws_of_mem_openBridge {log : AttemptLog} {ws : PyStr}
    (hlog : log ∈ (openBridge cfg up url headers? body).2)
    (h : ws ∈ log.events.filterMap ConnEvent.url?) :
    buildUpstreamWsUrl cfg.runtime url = .ok ws := by
  rw [openBridge.eq_def] at hlog
  split at hlog
  · exact absurd hlog List.not_mem_nil
  · exact absurd hlog List.not_mem_nil
  · rename_i wsUrl headers hws
    rw [url_of_mem_attempts hlog h]
    exact hws

/-- What is called for a URL that has the authority of the base URL. -/
lemma onAuthority_of_mem {served : Served}
    (hbase : validateUpstreamBaseUrl cfg.runtime cfg.settings.upstreamBaseUrl = .ok base)
    (hurl : SameAuthority cfg.runtime base base.scheme url)
    (hrequests : ∀ r ∈ served.requests, r.url = url)
    (hattempts : ∀ log ∈ served.attempts, ∀ ws ∈ log.events.filterMap ConnEvent.url?,
      buildUpstreamWsUrl cfg.runtime url = .ok ws) :
    ∀ called ∈ served.urls, OnAuthority cfg base called := by
  intro called hcalled
  rcases List.mem_append.mp hcalled with hcalled | hcalled
  · obtain ⟨r, hr, rfl⟩ := List.mem_map.mp hcalled
    rw [hrequests r hr]
    exact .inl hurl
  · obtain ⟨log, hlog, hws⟩ := List.mem_flatMap.mp hcalled
    exact .inr (buildUpstreamWsUrl_authority hbase hurl (hattempts log hlog called hws))

/-- Nothing is called. -/
lemma urls_of_nothing {reply : Option Reply} (h : url ∈ ({ reply } : Served).urls) : False := by
  simp [Served.urls] at h

lemma bridgeEndpoint_calls {headers : RawHeaders} :
    (∀ r ∈ (bridgeEndpoint cfg up url headers body).requests, r.url = url) ∧
      ∀ log ∈ (bridgeEndpoint cfg up url headers body).attempts,
        log ∈ (openBridge cfg up url (some headers) body).2 := by
  rw [bridgeEndpoint]
  rcases openBridge cfg up url (some headers) body with ⟨outcome, attempts⟩
  rcases outcome with e | opened
  · cases e <;> exact ⟨by simp, fun _ h => h⟩
  · exact ⟨by simp, fun _ h => h⟩

lemma httpEndpoint_calls : (httpEndpoint cfg up method url headers body).attempts = [] ∧
    (httpEndpoint cfg up method url headers body).requests = requestsOf
      (openUpstreamRecorded cfg up.exchange up.response method url headers body).2 := by
  rw [httpEndpoint]
  rcases openUpstreamRecorded cfg up.exchange up.response method url headers body
    with ⟨outcome, record⟩
  rcases outcome with e | opened
  · cases e <;> exact ⟨rfl, rfl⟩
  · exact ⟨rfl, rfl⟩

lemma writeWebsocketBridgeResponse_calls {request : HttpRequest} :
    (writeWebsocketBridgeResponse cfg up request path).requests = [] ∧
      ∀ log ∈ (writeWebsocketBridgeResponse cfg up request path).attempts,
        log ∈ (openBridge cfg up (upstreamUrl cfg.settings path)
          (filteredRequestHeadersFromRaw cfg.settings request.headers) request.body).2 := by
  rw [writeWebsocketBridgeResponse]
  split_ifs
  · exact ⟨rfl, by simp⟩
  · rcases openBridge cfg up (upstreamUrl cfg.settings path)
      (filteredRequestHeadersFromRaw cfg.settings request.headers) request.body
      with ⟨outcome, attempts⟩
    rcases outcome with e | opened
    · cases e <;> exact ⟨rfl, fun _ h => h⟩
    · exact ⟨rfl, fun _ h => h⟩

lemma writeHttpProxyResponse_calls {request : HttpRequest} :
    (writeHttpProxyResponse cfg up request path).attempts = [] ∧
      ∀ r ∈ (writeHttpProxyResponse cfg up request path).requests,
        r.url = upstreamUrl cfg.settings path := by
  cases hheaders : filteredRequestHeadersFromRaw cfg.settings request.headers with
  | none =>
      rw [writeHttpProxyResponse, hheaders]
      exact ⟨rfl, by simp⟩
  | some headers =>
      rw [requests_writeHttpProxyResponse hheaders]
      refine ⟨?_, fun r hr => url_of_mem_requests hr⟩
      rw [writeHttpProxyResponse, hheaders]
      dsimp only
      rcases openUpstreamRecorded cfg up.exchange up.response request.method
        (upstreamUrl cfg.settings path) headers request.body with ⟨outcome, record⟩
      rcases outcome with e | opened
      · cases e <;> rfl
      · rfl

/-- **No request changes the authority** of what the proxy talks to. -/
theorem keepsAuthority
    (hbase : validateUpstreamBaseUrl cfg.runtime cfg.settings.upstreamBaseUrl = .ok base) :
    KeepsAuthority cfg base := by
  -- every URL that is built has the authority of the base URL
  have hbuilt : ∀ url, BuiltUrl cfg url → SameAuthority cfg.runtime base base.scheme url := by
    intro url hurl
    cases hurl with
    | @intercepted _ path _ => exact upstreamUrl_authority hbase path
    | reverse h => exact buildUpstreamUrl_authority hbase h
  constructor
  case http => exact hbuilt
  case websocket =>
    exact fun url hurl ws hws => buildUpstreamWsUrl_authority hbase (hbuilt url hurl) hws
  -- the reverse proxy, over websockets and over HTTP
  case reverse =>
    intro up request called hcalled
    rw [proxyEndpoint] at hcalled
    split at hcalled
    · exact (urls_of_nothing hcalled).elim
    · rename_i body _
      split at hcalled
      · rename_i url headers hurl _
        have hsame := hbuilt url (.reverse hurl)
        split at hcalled
        · split_ifs at hcalled
          · exact (urls_of_nothing hcalled).elim
          · obtain ⟨hrequests, hattempts⟩ := @bridgeEndpoint_calls cfg url up body headers
            exact onAuthority_of_mem hbase hsame hrequests
              (fun log hlog ws hws => ws_of_mem_openBridge (hattempts log hlog) hws) called hcalled
        · obtain ⟨hattempts, hrequests⟩ :=
            @httpEndpoint_calls cfg url up request.method headers body
          refine onAuthority_of_mem hbase hsame (fun r hr => ?_) (by simp [hattempts]) called
            hcalled
          rw [hrequests] at hr
          exact url_of_mem_requests hr
      · exact (urls_of_nothing hcalled).elim
  -- the MITM front end, over both as well
  case intercepted =>
    intro up stream called hcalled
    rw [handleMitmConnection] at hcalled
    split at hcalled
    · rename_i request _ _
      split at hcalled
      · exact (urls_of_nothing hcalled).elim
      · rename_i path hpath
        have hsame := hbuilt _ (.intercepted hpath)
        split_ifs at hcalled
        · obtain ⟨hrequests, hattempts⟩ := @writeWebsocketBridgeResponse_calls cfg path up request
          exact onAuthority_of_mem hbase hsame (by simp [hrequests])
            (fun log hlog ws hws => ws_of_mem_openBridge (hattempts log hlog) hws) called hcalled
        · obtain ⟨hattempts, hrequests⟩ := @writeHttpProxyResponse_calls cfg path up request
          exact onAuthority_of_mem hbase hsame hrequests (by simp [hattempts]) called hcalled
    · exact (urls_of_nothing hcalled).elim

/-- A base URL with a user, a port and a path. -/
def userinfoConfig : Config :=
  { sampleConfig with
    settings := { sampleConfig.settings with
      upstreamBaseUrl := py "https://user@api.example:8443/v1" } }

/-- No request leaves the host and the user of that base URL. -/
theorem keepsAuthority_userinfo : KeepsAuthority userinfoConfig
    ⟨py "https", py "user@api.example:8443", py "/v1", [], []⟩ := by
  refine keepsAuthority ?_
  have hsplit : userinfoConfig.runtime.urlsplit userinfoConfig.settings.upstreamBaseUrl
      = some ⟨py "https", py "user@api.example:8443", py "/v1", [], []⟩ := by decide +kernel
  rw [validateUpstreamBaseUrl, hsplit]
  dsimp only
  rw [if_neg (by decide +kernel)]

end CodexResetProxy
