import CodexResetProxy.App
import CodexResetProxy.Mitm.Endpoint
import CodexResetProxy.Mitm.Wire
import CodexResetProxy.Upstream.Endings

/-!
Whether the two front ends make the same of a request.

* `Delivers`: the ASGI server gives the request that was sent on the connection.
* `AgreeWhen`: when they agree; `frontEndsAgree_iff`: **then, and only then**.  An
  intercepted connection is closed without a reply wherever the other front end replies
  to a request that is too large, and the reply to a request without a response names
  the error but not the attempts.
-/

namespace CodexResetProxy

open PyStr ByteStr StreamReader

/-- The ASGI server gives a request as it was sent, with its path and query apart and
its body in chunks of any size. -/
structure Delivers (w : WireRequest) (target : OriginForm) (a : AsgiRequest) : Prop where
  sent : w.target = target.bytes
  method : a.method = decodeLatin1 w.method
  rawPath : a.rawPath = some target.path
  queryString : a.queryString = some (target.query.getD [])
  headers : a.headers = w.headers
  body : a.body.flatten = w.body.body

variable (cfg : Config) (up : Upstream)

/-- The URL that the reverse proxy makes of a target: an empty query is left out. -/
def OriginForm.upstreamUrl (target : OriginForm) (settings : Settings) : PyStr :=
  settings.upstreamBaseUrl ++
    if target.query = some [] then decodeLatin1 target.path else decodeLatin1 target.bytes

/-- An empty query makes no difference: there is none; or the base URL has no query and
no fragment, so that it is left out of the URL of the websocket as well; or nothing is
called. -/
def SameCalls (target : OriginForm) (body : Bytes) : Prop :=
  target.query = some [] →
    (0x3f ∉ cfg.settings.upstreamBaseUrl ∧ 0x23 ∉ cfg.settings.upstreamBaseUrl) ∨
      cfg.settings.upstreamMaxAttempts = 0 ∨
      ∃ e, buildResponseCreateRequest cfg.runtime.depth ⟨body.toArray⟩ = .error e

/-- A request is answered over a websocket: its URL can be split, and then it has another
scheme than those of HTTP and websockets, or the calls are the same and none of them
raises what nobody catches. -/
def BridgeAnswers (target : OriginForm) (headers : RawHeaders) (body : Bytes) : Prop :=
  match buildUpstreamWsUrl cfg.runtime (target.upstreamUrl cfg.settings) with
  | .error (.bridge _) => True
  | .error _ => False
  | .ok wsUrl => SameCalls cfg target body ∧
      ¬Uncaught cfg up.course ⟨0, wsUrl, headers, ⟨body.toArray⟩⟩ up.pool

/-- When the front ends agree on a request.

* `fits`, `body`: it is within the limits of the reader and of the settings;
* `urlPath`: its decoded path is ASCII; `key`: the header with the key can be encoded;
* `http`: over plain HTTP its query is not empty, and an attempt gets headers;
* `bridge`: over websockets it is not to be bridged, or it is answered. -/
structure AgreeWhen (w : WireRequest) (target : OriginForm) (a : AsgiRequest) : Prop where
  fits : w.Fits
  body : w.body.body.length ≤ cfg.settings.maxRequestBodyBytes
  urlPath : ∃ path, a.urlPath = some path ∧ ∀ c ∈ path, c < 128
  key : cfg.settings.keyHeader?.isSome
  http : cfg.settings.transportMode = .http →
    target.query ≠ some [] ∧ GetsHeaders cfg up.exchange
  bridge : cfg.settings.transportMode = .websocketPerRequest → a.method = py "POST" →
    ∀ headers, filteredRequestHeadersFromRaw cfg.settings a.headers = some headers →
      BridgeAnswers cfg up target headers w.body.body

/-! ### Replies -/

lemma proxyHeaders_cons (h : Bytes × Bytes) (l : RawHeaders) : proxyHeaders (h :: l)
    = if ascii "x-codex-reset-proxy-" <+: lowerBytes h.1 then h :: proxyHeaders l
      else proxyHeaders l := by
  rw [proxyHeaders, List.filter_cons]
  simp only [decide_eq_true_iff]
  rfl

/-- The names of the headers of the proxy. -/
lemma names_of_proxy : ∀ name ∈ [ascii "x-codex-reset-proxy-error",
    ascii "x-codex-reset-proxy-attempts", ascii "x-codex-reset-proxy-transport"],
    ascii "x-codex-reset-proxy-" <+: lowerBytes name := by
  decide +kernel

/-- The names of the other headers of its replies. -/
def otherNames : List Bytes :=
  [ascii "content-length", ascii "content-type", ascii "transfer-encoding", ascii "connection",
    ascii "cache-control"]

lemma names_of_others : ∀ name ∈ otherNames,
    ¬ascii "x-codex-reset-proxy-" <+: lowerBytes name := by
  decide +kernel

@[simp] lemma proxyHeaders_errorHeader (code : String) (l : RawHeaders) :
    proxyHeaders (errorHeader code :: l) = errorHeader code :: proxyHeaders l := by
  rw [proxyHeaders_cons, errorHeader, if_pos (names_of_proxy _ (by simp))]

@[simp] lemma proxyHeaders_attemptsHeader (n : ℕ) (l : RawHeaders) :
    proxyHeaders (attemptsHeader n :: l) = attemptsHeader n :: proxyHeaders l := by
  rw [proxyHeaders_cons, attemptsHeader, if_pos (names_of_proxy _ (by simp))]

@[simp] lemma proxyHeaders_transportHeader (l : RawHeaders) :
    proxyHeaders (transportHeader :: l) = transportHeader :: proxyHeaders l := by
  rw [proxyHeaders_cons, transportHeader, if_pos (names_of_proxy _ (by simp))]

/-- Other headers are not looked at. -/
lemma proxyHeaders_append_others {l l' : RawHeaders} (h : ∀ x ∈ l', x.1 ∈ otherNames) :
    proxyHeaders (l ++ l') = proxyHeaders l ∧ proxyHeaders (l' ++ l) = proxyHeaders l := by
  have hnil : proxyHeaders l' = [] := by
    refine List.filter_eq_nil_iff.mpr fun x hx => ?_
    simpa using names_of_others _ (h x hx)
  constructor
  · rw [proxyHeaders, List.filter_append]
    exact (congrArg (proxyHeaders l ++ ·) hnil).trans (List.append_nil _)
  · rw [proxyHeaders, List.filter_append]
    exact congrArg (· ++ proxyHeaders l) hnil

/-- What `_write_streaming_response` leaves out is no header of the proxy. -/
lemma proxyHeaders_streamingResponse (statusCode : ℕ) (headers : RawHeaders)
    (chunks : List Bytes) :
    proxyHeaders (streamingResponse statusCode headers chunks).headers = proxyHeaders headers := by
  rw [streamingResponse, (proxyHeaders_append_others (by simp [otherNames])).1, proxyHeaders,
    List.filter_filter]
  refine List.filter_congr fun h _ => ?_
  have hlower : ∀ name ∈ [ascii "content-length", ascii "transfer-encoding", ascii "connection"],
      ¬ascii "x-codex-reset-proxy-" <+: name := by decide +kernel
  by_cases hpre : ascii "x-codex-reset-proxy-" <+: lowerBytes h.1
  · have hnot : lowerBytes h.1 ∉ [ascii "content-length", ascii "transfer-encoding",
        ascii "connection"] := fun hmem => hlower _ hmem hpre
    rw [decide_eq_true hpre, decide_eq_true hnot]
    rfl
  · rw [decide_eq_false hpre]
    rfl

lemma proxyHeaders_fixedResponse (statusCode : ℕ) (headers : RawHeaders) (body : Bytes) :
    proxyHeaders (fixedResponse statusCode headers body).headers = proxyHeaders headers :=
  (proxyHeaders_append_others (by simp [otherNames])).1

lemma proxyHeaders_plainTextResponse (content : String) (statusCode : ℕ) (headers : RawHeaders) :
    proxyHeaders (plainTextResponse content statusCode headers).headers = proxyHeaders headers :=
  (proxyHeaders_append_others (by simp [otherNames])).1

/-- Chunks that are empty do not matter. -/
lemma flatten_filter_ne_nil (chunks : List Bytes) :
    (chunks.filter (· ≠ [])).flatten = chunks.flatten := by
  induction chunks with
  | nil => rfl
  | cons chunk chunks ih =>
      by_cases hnil : chunk = []
      · rw [List.filter_cons_of_neg (by simpa using hnil), ih, hnil]
        rfl
      · rw [List.filter_cons_of_pos (by simpa using hnil), List.flatten_cons, ih, List.flatten_cons]

/-! ### Plain HTTP -/

variable {cfg up} {w : WireRequest} {target : OriginForm} {a : AsgiRequest}
  {request : HttpRequest} {url path : PyStr} {headers : RawHeaders}

/-- What the reverse proxy makes of a call over HTTP. -/
lemma httpEndpoint_eq {method : PyStr} {body : Bytes}
    {call : Except (UpstreamOpenError ⊕ HttpExc) OpenedUpstream × List UpstreamEvent}
    (hcall : openUpstreamRecorded cfg up.exchange up.response method url headers body = call) :
    httpEndpoint cfg up method url headers body =
      { requests := requestsOf call.2
        reply := match call.1 with
          | .ok opened => some
              { statusCode := opened.response.statusCode
                headers := filterRawHeaders opened.response.headers []
                  ++ [attemptsHeader opened.attempts]
                body := up.exchange.chunks.flatten }
          | .error (.inl e) => some (plainTextResponse e.text e.statusCode
              [errorHeader e.errorCode, attemptsHeader e.attempts])
          | .error (.inr _) => none } := by
  subst hcall
  rw [httpEndpoint]
  split <;> rename_i heq <;> rw [heq]

/-- What is made of it on an intercepted connection. -/
lemma writeHttpProxyResponse_eq
    {call : Except (UpstreamOpenError ⊕ HttpExc) OpenedUpstream × List UpstreamEvent}
    (hheaders : filteredRequestHeadersFromRaw cfg.settings request.headers = some headers)
    (hcall : openUpstreamRecorded cfg up.exchange up.response request.method
      (upstreamUrl cfg.settings path) headers request.body = call) :
    writeHttpProxyResponse cfg up request path =
      { requests := requestsOf call.2
        reply := match call.1 with
          | .ok opened => some (streamingResponse opened.response.statusCode
              (filterRawHeaders opened.response.headers [] ++ [attemptsHeader opened.attempts])
              up.exchange.chunks)
          | .error (.inl e) => some
              (fixedResponse e.statusCode [errorHeader e.errorCode] (utf8 e.text))
          | .error (.inr _) => none } := by
  subst hcall
  rw [writeHttpProxyResponse, hheaders]
  dsimp only
  split <;> rename_i heq <;> rw [heq]

/-- **Over plain HTTP** the front ends agree just when they go to the same URL and a
response comes. -/
theorem agree_http_iff
    (hheaders : filteredRequestHeadersFromRaw cfg.settings request.headers = some headers) :
    Agree (httpEndpoint cfg up request.method url headers request.body)
        (writeHttpProxyResponse cfg up request path) ↔
      url = upstreamUrl cfg.settings path ∧ GetsHeaders cfg up.exchange := by
  have hok := @isOk_openUpstreamRecorded_iff cfg up.exchange up.response request.method url headers
    request.body
  have hok' := @isOk_openUpstreamRecorded_iff cfg up.exchange up.response request.method
    (upstreamUrl cfg.settings path) headers request.body
  rw [httpEndpoint_eq rfl, writeHttpProxyResponse_eq hheaders rfl]
  constructor
  -- some attempt gets headers, since the error replies differ
  · rintro ⟨hrequests, -, -, r, r', hr, hr', -, hproxy, -⟩
    have hgets : GetsHeaders cfg up.exchange := by
      by_contra hnot
      cases hcall : (openUpstreamRecorded cfg up.exchange up.response request.method url headers
          request.body).1 with
      | ok opened => exact hnot (hok.mp (by rw [hcall]; rfl))
      | error e =>
          cases hcall' : (openUpstreamRecorded cfg up.exchange up.response request.method
              (upstreamUrl cfg.settings path) headers request.body).1 with
          | ok opened => exact hnot (hok'.mp (by rw [hcall']; rfl))
          | error e' =>
              rw [hcall] at hr
              rw [hcall'] at hr'
              -- the attempts are missing from the reply on the intercepted connection
              match e, e' with
              | .inl e, .inl e' =>
                  obtain rfl := Option.some.inj hr
                  obtain rfl := Option.some.inj hr'
                  rw [proxyHeaders_plainTextResponse, proxyHeaders_fixedResponse] at hproxy
                  simp at hproxy
              | .inr e, _ => simp at hr
              | _, .inr e' => simp at hr'
    -- the first request of both goes to the same URL
    obtain ⟨i, hi, hheads⟩ := hgets
    have hstart := congrArg List.head? hrequests
    dsimp only at hstart
    rw [requests_start (by omega), requests_start (by omega)] at hstart
    exact ⟨congrArg UpstreamRequest.url (Option.some.inj hstart), i, hi, hheads⟩
  · rintro ⟨rfl, hgets⟩
    refine ⟨rfl, rfl, rfl, ?_⟩
    cases hcall : (openUpstreamRecorded cfg up.exchange up.response request.method
        (upstreamUrl cfg.settings path) headers request.body).1 with
    | error e => exact absurd (hok.mpr hgets) (by simp [hcall, Except.isOk, Except.toBool])
    | ok opened =>
        refine ⟨_, _, rfl, rfl, rfl, ?_, ?_⟩
        · exact (proxyHeaders_streamingResponse _ _ _).symm
        · exact (flatten_filter_ne_nil _).symm

/-! ### Websockets -/

/-- What the reverse proxy makes of a call over a websocket. -/
lemma bridgeEndpoint_eq {body : Bytes} {call : Except Raised OpenedBridge × List AttemptLog}
    (hcall : openBridge cfg up url (some headers) body = call) :
    bridgeEndpoint cfg up url headers body =
      { attempts := call.2
        streamed := call.1.toOption.map (streamBridge cfg up)
        reply := match call.1 with
          | .ok opened => some
              { statusCode := 200
                headers := [transportHeader, attemptsHeader opened.attempts,
                  (ascii "content-type", ascii "text/event-stream; charset=utf-8")]
                body := (streamBridge cfg up opened).chunks.flatMap fun chunk => chunk.data.toList }
          | .error (.bridge e) => some (plainTextResponse (e.message ++ "\n") e.statusCode
              [errorHeader e.errorCode, attemptsHeader e.attempts])
          | .error _ => none } := by
  subst hcall
  rw [bridgeEndpoint]
  cases openBridge cfg up url (some headers) body with
  | mk result attempts =>
      match result with
      | .ok opened | .error (.bridge e) | .error (.exc e) | .error .cancelled => rfl

/-- What is made of it on an intercepted connection. -/
lemma writeWebsocketBridgeResponse_eq {call : Except Raised OpenedBridge × List AttemptLog}
    (hmethod : request.method = py "POST")
    (hcall : openBridge cfg up (upstreamUrl cfg.settings path)
      (filteredRequestHeadersFromRaw cfg.settings request.headers) request.body = call) :
    writeWebsocketBridgeResponse cfg up request path =
      { attempts := call.2
        streamed := call.1.toOption.map (streamBridge cfg up)
        reply := match call.1 with
          | .ok opened => some (streamingResponse 200
              [(ascii "content-type", ascii "text/event-stream; charset=utf-8"),
                (ascii "cache-control", ascii "no-cache"), transportHeader,
                attemptsHeader opened.attempts]
              ((streamBridge cfg up opened).chunks.map fun chunk => chunk.data.toList))
          | .error (.bridge e) => some (fixedResponse e.statusCode
              [errorHeader e.errorCode, attemptsHeader e.attempts] (utf8 (e.message ++ "\n")))
          | .error _ => none } := by
  subst hcall
  rw [writeWebsocketBridgeResponse, if_neg (not_not.mpr hmethod)]
  cases openBridge cfg up (upstreamUrl cfg.settings path)
      (filteredRequestHeadersFromRaw cfg.settings request.headers) request.body with
  | mk result attempts =>
      match result with
      | .ok opened | .error (.bridge e) | .error (.exc e) | .error .cancelled => rfl

/-- **Over a websocket** the front ends agree on the same call, unless it ends with an
exception that nobody catches. -/
theorem agree_bridge_iff {call : Except Raised OpenedBridge × List AttemptLog}
    (hmethod : request.method = py "POST")
    (hcall : openBridge cfg up url (some headers) request.body = call)
    (hcall' : openBridge cfg up (upstreamUrl cfg.settings path)
      (filteredRequestHeadersFromRaw cfg.settings request.headers) request.body = call) :
    Agree (bridgeEndpoint cfg up url headers request.body)
      (writeWebsocketBridgeResponse cfg up request path) ↔ ¬Escapes call.1 := by
  rw [bridgeEndpoint_eq hcall, writeWebsocketBridgeResponse_eq hmethod hcall']
  constructor
  · rintro ⟨-, -, -, r, r', hr, -⟩
    match hresult : call.1 with
    | .ok opened => exact id
    | .error (.bridge e) => exact id
    | .error (.exc e) => simp [hresult] at hr
    | .error .cancelled => simp [hresult] at hr
  · intro hescapes
    refine ⟨rfl, rfl, rfl, ?_⟩
    match hresult : call.1 with
    | .ok opened =>
        refine ⟨_, _, rfl, rfl, rfl, ?_, ?_⟩
        · rw [proxyHeaders_streamingResponse]
          exact (@proxyHeaders_append_others [transportHeader, attemptsHeader _]
            [(ascii "content-type", _)] (by simp [otherNames])).1.trans
            (@proxyHeaders_append_others [transportHeader, attemptsHeader _]
              [(ascii "content-type", _), (ascii "cache-control", _)]
              (by simp [otherNames])).2.symm
        · rw [streamingResponse]
          exact ((flatten_filter_ne_nil _).trans (List.flatMap_def ..).symm).symm
    | .error (.bridge e) =>
        refine ⟨_, _, rfl, rfl, rfl, ?_, rfl⟩
        rw [proxyHeaders_plainTextResponse, proxyHeaders_fixedResponse]
    | .error (.exc e) => exact absurd (hresult ▸ trivial : Escapes call.1) hescapes
    | .error .cancelled => exact absurd (hresult ▸ trivial : Escapes call.1) hescapes

lemma openBridge_of_ok {wsUrl : PyStr} {body : Bytes}
    (h : buildUpstreamWsUrl cfg.runtime url = .ok wsUrl) :
    openBridge cfg up url (some headers) body =
      ((openBridgeRecorded cfg up.course ⟨0, wsUrl, headers, ⟨body.toArray⟩⟩ up.pool).1,
        (openBridgeRecorded cfg up.course ⟨0, wsUrl, headers, ⟨body.toArray⟩⟩ up.pool).2.2) := by
  simp only [openBridge, h]

lemma openBridge_of_error {e : Raised} {body : Bytes}
    (h : buildUpstreamWsUrl cfg.runtime url = .error e) :
    openBridge cfg up url (some headers) body = (.error e, []) := by
  simp only [openBridge, h]

/-! ### An empty query -/

/-- The two URLs of a target: the reverse proxy leaves an empty query out. -/
lemma upstreamUrl_eq (settings : Settings) (target : OriginForm) :
    upstreamUrl settings (decodeLatin1 target.bytes) = target.upstreamUrl settings ++
      if target.query = some [] then [0x3f] else [] := by
  rw [upstreamUrl_originForm, OriginForm.upstreamUrl, List.append_assoc]
  by_cases hquery : target.query = some []
  · rw [if_pos hquery, if_pos hquery, target.decodeLatin1_bytes, hquery]
    rfl
  · rw [if_neg hquery, if_neg hquery, List.append_nil]

/-- A URL that ends with the path of a target has a character that is not a blank. -/
lemma exists_mem_upstreamUrl (settings : Settings) (target : OriginForm) :
    ∃ c ∈ target.upstreamUrl settings, 0x20 < c := by
  obtain ⟨s, hs⟩ := target.exists_path
  refine ⟨0x2f, ?_, by decide⟩
  rw [OriginForm.upstreamUrl, target.decodeLatin1_bytes, hs]
  split_ifs <;> simp

/-- **The calls are the same** on both ways just when an empty query makes no
difference. -/
theorem openBridge_eq_iff {wsUrl : PyStr} {body : Bytes}
    (hws : buildUpstreamWsUrl cfg.runtime (target.upstreamUrl cfg.settings) = .ok wsUrl) :
    (SameCalls cfg target body →
        openBridge cfg up (upstreamUrl cfg.settings (decodeLatin1 target.bytes)) (some headers) body
          = openBridge cfg up (target.upstreamUrl cfg.settings) (some headers) body) ∧
      ((openBridge cfg up (upstreamUrl cfg.settings (decodeLatin1 target.bytes)) (some headers)
            body).2
          = (openBridge cfg up (target.upstreamUrl cfg.settings) (some headers) body).2 →
        SameCalls cfg target body) := by
  rw [upstreamUrl_eq, SameCalls]
  by_cases hquery : target.query = some []
  · rw [if_pos hquery]
    obtain ⟨wsUrl', hws', hsame⟩ :=
      (buildUpstreamWsUrl_concat (exists_mem_upstreamUrl cfg.settings target)).2 wsUrl hws
    have hmem : ∀ c, c = 0x3f ∨ c = 0x23 →
        (c ∉ target.upstreamUrl cfg.settings ↔ c ∉ cfg.settings.upstreamBaseUrl) := by
      intro c hc
      rw [OriginForm.upstreamUrl, if_pos hquery, List.mem_append,
        or_iff_left (target.notMem_path hc)]
    -- the websocket URLs differ just when the base URL has neither separator
    rw [hmem 0x3f (.inl rfl), hmem 0x23 (.inr rfl)] at hsame
    rw [openBridge_of_ok hws', openBridge_of_ok hws]
    constructor
    · intro h
      rcases h hquery with hbase | hnone
      · rw [hsame.mpr hbase]
      · have hcall : openBridgeRecorded cfg up.course ⟨0, wsUrl', headers, ⟨body.toArray⟩⟩ up.pool
            = openBridgeRecorded cfg up.course ⟨0, wsUrl, headers, ⟨body.toArray⟩⟩ up.pool :=
          openBridgeRecorded_of_noAttempt rfl hnone
        rw [hcall]
    -- with an attempt, the URL of the first one shows the difference
    · intro hlogs _
      by_contra hnot
      rw [not_or, not_or] at hnot
      obtain ⟨hbase, hmax, hbody⟩ := hnot
      obtain ⟨payload, hpayload⟩ : ∃ payload,
          buildResponseCreateRequest cfg.runtime.depth ⟨body.toArray⟩ = .ok payload := by
        cases hbuild : buildResponseCreateRequest cfg.runtime.depth ⟨body.toArray⟩ with
        | ok payload => exact ⟨payload, rfl⟩
        | error e => exact absurd ⟨e, hbuild⟩ hbody
      have hstart := congrArg List.head? hlogs
      dsimp only at hstart
      rw [@logs_start cfg up.course _ up.pool payload hpayload (Nat.pos_of_ne_zero hmax),
        @logs_start cfg up.course _ up.pool payload hpayload (Nat.pos_of_ne_zero hmax)] at hstart
      exact hbase (hsame.mp (url_of_attemptLog (Option.some.inj hstart)))
  · rw [if_neg hquery, List.append_nil]
    exact ⟨fun _ => rfl, fun _ h => absurd h hquery⟩

/-- **A request over a websocket** is answered alike just when it is answered. -/
theorem agree_bridge (hmethod : request.method = py "POST")
    (hheaders : filteredRequestHeadersFromRaw cfg.settings request.headers = some headers) :
    Agree (bridgeEndpoint cfg up (target.upstreamUrl cfg.settings) headers request.body)
        (writeWebsocketBridgeResponse cfg up request (decodeLatin1 target.bytes)) ↔
      BridgeAnswers cfg up target headers request.body := by
  rw [BridgeAnswers]
  cases hws : buildUpstreamWsUrl cfg.runtime (target.upstreamUrl cfg.settings) with
  | error e =>
      -- a URL that is refused is refused with an empty query and without
      have hws' : buildUpstreamWsUrl cfg.runtime
          (upstreamUrl cfg.settings (decodeLatin1 target.bytes)) = .error e := by
        rw [upstreamUrl_eq]
        split_ifs
        · exact (buildUpstreamWsUrl_concat (exists_mem_upstreamUrl cfg.settings target)).1 e hws
        · rw [List.append_nil, hws]
      rw [agree_bridge_iff hmethod (openBridge_of_error hws)
        (by rw [hheaders, openBridge_of_error hws'])]
      cases e <;> simp [Escapes]
  | ok wsUrl =>
      obtain ⟨hsame, hlogs⟩ := @openBridge_eq_iff cfg up target headers wsUrl request.body hws
      have hescapes : Escapes (openBridge cfg up (target.upstreamUrl cfg.settings) (some headers)
          request.body).1 ↔ Uncaught cfg up.course ⟨0, wsUrl, headers, ⟨request.body.toArray⟩⟩
            up.pool := by
        rw [openBridge_of_ok hws]
        exact escapes_openBridgeRecorded_iff
      have hiff : SameCalls cfg target request.body →
          (Agree (bridgeEndpoint cfg up (target.upstreamUrl cfg.settings) headers request.body)
            (writeWebsocketBridgeResponse cfg up request (decodeLatin1 target.bytes)) ↔
          ¬Uncaught cfg up.course ⟨0, wsUrl, headers, ⟨request.body.toArray⟩⟩ up.pool) := by
        intro hcalls
        rw [agree_bridge_iff hmethod rfl (by rw [hheaders, hsame hcalls]), hescapes]
      constructor
      -- the attempts of both are the same, and with them the calls
      · intro hagree
        have hattempts := hagree.attempts
        rw [bridgeEndpoint_eq rfl, writeWebsocketBridgeResponse_eq hmethod rfl, hheaders]
          at hattempts
        have hcalls := hlogs hattempts.symm
        exact ⟨hcalls, (hiff hcalls).mp hagree⟩
      · rintro ⟨hcalls, huncaught⟩
        exact (hiff hcalls).mpr huncaught

/-! ### The two front ends -/

/-- What is read of a connection, if the request is within the limits. -/
lemma handleMitmConnection_of_fits (hdelivers : Delivers w target a) (hfits : w.Fits)
    (hbody : w.body.body.length ≤ cfg.settings.maxRequestBodyBytes) (rest : Bytes) (eof : Bool) :
    handleMitmConnection cfg up ⟨w.bytes ++ rest, eof⟩ =
      if decodeLatin1 target.path ∈ cfg.settings.interceptPaths ∧
          cfg.settings.transportMode = .websocketPerRequest then
        writeWebsocketBridgeResponse cfg up w.request (decodeLatin1 target.bytes)
      else writeHttpProxyResponse cfg up w.request (decodeLatin1 target.bytes) := by
  have hread := (readsWire cfg.settings.maxRequestBodyBytes w rest eof).small hfits hbody
  have htarget : w.request.target = decodeLatin1 target.bytes :=
    congrArg decodeLatin1 hdelivers.sent
  simp only [handleMitmConnection, hread, htarget, originPath_originForm, pathMatches_originForm]

/-- Nothing is replied to a request beyond the limits. -/
lemma reply_of_not_fits (h : ¬(w.Fits ∧ w.body.body.length ≤ cfg.settings.maxRequestBodyBytes))
    (rest : Bytes) (eof : Bool) :
    (handleMitmConnection cfg up ⟨w.bytes ++ rest, eof⟩).reply = none := by
  obtain ⟨why, hwhy⟩ : ∃ why, readHttpRequest cfg.settings.maxRequestBodyBytes
      ⟨w.bytes ++ rest, eof⟩ = .error why := by
    have hreads := readsWire cfg.settings.maxRequestBodyBytes w rest eof
    by_cases hfits : w.Fits
    · exact ⟨_, hreads.large hfits (Nat.lt_of_not_le fun hle => h ⟨hfits, hle⟩)⟩
    · exact hreads.unfit hfits
  rw [handleMitmConnection, hwhy]

/-- The decoded path of a request can be encoded just when it is ASCII. -/
lemma isSome_encodeAscii_iff {urlPath : Option PyStr} : (urlPath.bind encodeAscii).isSome ↔
    ∃ path, urlPath = some path ∧ ∀ c ∈ path, c < 128 := by
  cases urlPath with
  | none => simp
  | some path =>
      rw [Option.bind_some, encodeAscii]
      split_ifs with hascii
      · exact iff_of_true rfl ⟨path, rfl, hascii⟩
      · refine iff_of_false Bool.false_ne_true ?_
        rintro ⟨path', hpath, hascii'⟩
        obtain rfl := Option.some.inj hpath
        exact hascii hascii'

/-- The headers of a request can be made just when the header with the key can. -/
lemma isSome_filteredRequestHeadersFromRaw {settings : Settings} {rawHeaders : RawHeaders} :
    (filteredRequestHeadersFromRaw settings rawHeaders).isSome = settings.keyHeader?.isSome := by
  rw [filteredRequestHeadersFromRaw_eq, Option.isSome_map]

/-- What the reverse proxy makes of a request within the limit. -/
lemma proxyEndpoint_of_fits (hdelivers : Delivers w target a)
    (hbody : w.body.body.length ≤ cfg.settings.maxRequestBodyBytes) :
    proxyEndpoint cfg up a =
      match a.urlPath.bind encodeAscii, filteredRequestHeadersFromRaw cfg.settings w.headers with
      | some _, some headers =>
          match cfg.settings.transportMode with
          | .websocketPerRequest =>
              if decodeLatin1 w.method ≠ py "POST" then
                { reply := some (plainTextResponse onlySupportsPost 405 []) }
              else bridgeEndpoint cfg up (target.upstreamUrl cfg.settings) headers w.body.body
          | .http => httpEndpoint cfg up (decodeLatin1 w.method) (target.upstreamUrl cfg.settings)
              headers w.body.body
      | _, _ => {} := by
  rw [proxyEndpoint, readLimitedBody_eq, hdelivers.body, if_neg (Nat.not_lt.mpr hbody),
    hdelivers.rawPath, hdelivers.queryString, buildUpstreamUrl_originForm, hdelivers.headers,
    hdelivers.method]
  cases a.urlPath.bind encodeAscii with
  | none => rfl
  | some path => cases filteredRequestHeadersFromRaw cfg.settings w.headers <;> rfl

/-- When the front ends agree over plain HTTP on a request that both read. -/
lemma agreeWhen_http_iff (hread : w.Fits ∧ w.body.body.length ≤ cfg.settings.maxRequestBodyBytes)
    (hascii : ∃ path, a.urlPath = some path ∧ ∀ c ∈ path, c < 128)
    (hkey : cfg.settings.keyHeader?.isSome) (htransport : cfg.settings.transportMode = .http) :
    AgreeWhen cfg up w target a ↔ target.query ≠ some [] ∧ GetsHeaders cfg up.exchange := by
  constructor
  · exact fun h => h.http htransport
  · exact fun h => ⟨hread.1, hread.2, hascii, hkey, fun _ => h,
      fun hws => by simp [htransport] at hws⟩

/-- When they agree over websockets. -/
lemma agreeWhen_bridge_iff (hread : w.Fits ∧ w.body.body.length ≤ cfg.settings.maxRequestBodyBytes)
    (hascii : ∃ path, a.urlPath = some path ∧ ∀ c ∈ path, c < 128)
    (hkey : cfg.settings.keyHeader?.isSome)
    (htransport : cfg.settings.transportMode = .websocketPerRequest)
    (hheaders : filteredRequestHeadersFromRaw cfg.settings a.headers = some headers) :
    AgreeWhen cfg up w target a ↔
      (a.method = py "POST" → BridgeAnswers cfg up target headers w.body.body) := by
  constructor
  · exact fun h hpost => h.bridge htransport hpost headers hheaders
  · intro h
    refine ⟨hread.1, hread.2, hascii, hkey, fun hhttp => by simp [htransport] at hhttp,
      fun _ hpost headers' hheaders' => ?_⟩
    obtain rfl := Option.some.inj (hheaders.symm.trans hheaders')
    exact h hpost

/-- **When the front ends agree.** -/
theorem frontEndsAgree_iff (hdelivers : Delivers w target a)
    (hmode : cfg.settings.transportMode = .http ∨
      decodeLatin1 target.path ∈ cfg.settings.interceptPaths) (rest : Bytes) (eof : Bool) :
    Agree (proxyEndpoint cfg up a) (handleMitmConnection cfg up ⟨w.bytes ++ rest, eof⟩) ↔
      AgreeWhen cfg up w target a := by
  by_cases hread : w.Fits ∧ w.body.body.length ≤ cfg.settings.maxRequestBodyBytes
  -- a request beyond the limits: the MITM front end does not reply
  case neg =>
    refine iff_of_false (fun hagree => ?_) fun h => hread ⟨h.fits, h.body⟩
    obtain ⟨r, r', -, hr', -⟩ := hagree.reply
    simp [reply_of_not_fits hread] at hr'
  rw [handleMitmConnection_of_fits hdelivers hread.1 hread.2,
    proxyEndpoint_of_fits hdelivers hread.2]
  -- an exception of the reverse proxy is no reply
  have hraised : ∀ {s : Served}, ¬Agree {} s := by
    rintro s ⟨-, -, -, r, r', hr, -⟩
    simp at hr
  -- the reverse proxy encodes the path, whether it needs it or not
  cases hpath : a.urlPath.bind encodeAscii with
  | none =>
      refine iff_of_false hraised fun h => ?_
      have := isSome_encodeAscii_iff.mpr h.urlPath
      simp [hpath] at this
  | some path =>
  have hascii := isSome_encodeAscii_iff.mp (Option.isSome_iff_exists.mpr ⟨path, hpath⟩)
  cases hheaders : filteredRequestHeadersFromRaw cfg.settings w.headers with
  | none =>
      refine iff_of_false hraised fun h => ?_
      have := h.key
      rw [← @isSome_filteredRequestHeadersFromRaw _ w.headers, hheaders] at this
      simp at this
  | some headers =>
  have hrequest : filteredRequestHeadersFromRaw cfg.settings w.request.headers = some headers :=
    hheaders
  have hkey : cfg.settings.keyHeader?.isSome := by
    rw [← @isSome_filteredRequestHeadersFromRaw _ w.headers, hheaders]
    rfl
  cases htransport : cfg.settings.transportMode with
  | http =>
      -- over HTTP, up to the URL
      have hurl : target.upstreamUrl cfg.settings
          = upstreamUrl cfg.settings (decodeLatin1 target.bytes) ↔ target.query ≠ some [] := by
        rw [upstreamUrl_eq]
        split_ifs with hquery <;> simp [hquery]
      rw [if_neg (by simp), agreeWhen_http_iff hread hascii hkey htransport]
      refine (agree_http_iff hrequest).trans ?_
      rw [hurl]
  | websocketPerRequest =>
      -- over websockets, with `POST`
      have hpath := hmode.resolve_left (by simp [htransport])
      rw [if_pos ⟨hpath, rfl⟩,
        agreeWhen_bridge_iff hread hascii hkey htransport (by rw [hdelivers.headers, hheaders]),
        hdelivers.method]
      dsimp only
      by_cases hmethod : decodeLatin1 w.method = py "POST"
      · rw [if_neg (not_not.mpr hmethod), forall_prop_of_true hmethod]
        exact (agree_bridge hmethod hrequest).trans Iff.rfl
      -- any other method is refused by both
      · have hmethod' : w.request.method ≠ py "POST" := hmethod
        rw [if_pos hmethod, writeWebsocketBridgeResponse, if_pos hmethod']
        refine iff_of_true ⟨rfl, rfl, rfl, _, _, rfl, rfl, rfl, ?_, rfl⟩
          fun hpost => absurd hpost hmethod
        rw [proxyHeaders_plainTextResponse, proxyHeaders_fixedResponse]

/-- A header line that declares a body of two bytes. -/
def lengthField : WireField where
  name := ascii "Content-Length"
  blank := ascii " "
  value := ascii "2"
  name_plain := by decide +kernel
  isBlank := by decide +kernel
  value_plain := by decide +kernel
  value_start := by decide +kernel

lemma declared_lengthField :
    (WireBody.length (ascii "\x7b\x7d")).Declared ([lengthField].map WireField.header) := by
  refine ⟨⟨_, List.mem_singleton_self _, by decide +kernel⟩, fun h hmem => ?_⟩
  obtain rfl := List.mem_singleton.mp hmem
  exact ⟨by decide +kernel, fun _ => by decide +kernel⟩

/-- A request with a query and a declared length. -/
def samplePost : WireRequest where
  method := ascii "POST"
  target := ascii "/v1/responses?a=b"
  version := ascii "HTTP/1.1"
  fields := [lengthField]
  body := .length (ascii "\x7b\x7d")
  method_word := by decide +kernel
  target_word := by decide +kernel
  version_word := isWord_http11
  declared := declared_lengthField

/-- Its target. -/
def sampleTarget : OriginForm where
  path := ascii "/v1/responses"
  query := some (ascii "a=b")
  path_start := rfl
  path_chars := by decide +kernel
  query_chars := by decide +kernel

/-- What the ASGI server makes of it. -/
def samplePostAsgi : AsgiRequest where
  method := py "POST"
  rawPath := some (ascii "/v1/responses")
  urlPath := some (py "/v1/responses")
  queryString := some (ascii "a=b")
  headers := [(ascii "Content-Length", ascii "2")]
  body := [ascii "\x7b", [], ascii "\x7d"]

lemma delivers_samplePost : Delivers samplePost sampleTarget samplePostAsgi where
  sent := by decide +kernel
  method := by decide +kernel
  rawPath := rfl
  queryString := rfl
  headers := by decide +kernel
  body := by decide +kernel

/-- A response comes at the second attempt. -/
def lateUpstream : Upstream where
  exchange := lateHeaders
  response := fun _ => ⟨200, []⟩
  course := secondOpens
  pool := none
  later := fun _ => []

/-- No attempt gets headers in time. -/
def noUpstream : Upstream :=
  { lateUpstream with exchange := { lateHeaders with enter := fun _ => .raised .timeout } }

theorem frontEndsAgree_samplePost :
    Agree (proxyEndpoint sampleConfig lateUpstream samplePostAsgi)
      (handleMitmConnection sampleConfig lateUpstream ⟨samplePost.bytes ++ [], false⟩) := by
  refine (frontEndsAgree_iff delivers_samplePost (.inl rfl) [] false).mpr ?_
  constructor
  case fits => exact ⟨by decide +kernel, by decide +kernel, trivial⟩
  case body => decide +kernel
  case urlPath => exact ⟨_, rfl, by decide +kernel⟩
  case key => decide +kernel
  case http =>
    refine fun _ => ⟨by decide, 1, by decide, rfl, fun j hj => ?_⟩
    obtain rfl : j = 0 := by omega
    exact ⟨.timeout, _, rfl, rfl, rfl⟩
  case bridge => exact fun hws => absurd hws (by decide)

/-- **The front ends differ** where every attempt fails. -/
theorem not_frontEndsAgree_noUpstream :
    Delivers samplePost sampleTarget samplePostAsgi ∧
      ¬Agree (proxyEndpoint sampleConfig noUpstream samplePostAsgi)
        (handleMitmConnection sampleConfig noUpstream ⟨samplePost.bytes, false⟩) := by
  refine ⟨delivers_samplePost, fun hagree => ?_⟩
  obtain ⟨r, r', hr, hr', hsame⟩ := hagree.reply
  have hdiffer : (proxyEndpoint sampleConfig noUpstream samplePostAsgi).reply.map
        (fun r => proxyHeaders r.headers)
      ≠ (handleMitmConnection sampleConfig noUpstream ⟨samplePost.bytes, false⟩).reply.map
        (fun r => proxyHeaders r.headers) := by
    decide +kernel
  rw [hr, hr', Option.map_some, Option.map_some, hsame.headers] at hdiffer
  exact hdiffer rfl

end CodexResetProxy
