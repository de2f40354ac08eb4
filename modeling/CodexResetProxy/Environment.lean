import CodexResetProxy.Upstream.Headers

/-!
The settings as the environment gives them (`Settings.from_env` and the functions
of `config.py` that it calls), and what becomes of the configured key.

* `fromEnv`: the settings of an environment, or the error that it raises;
* `KeyOnWire`: the header that the documentation of the key variables promises;
* `keyOnWire_iff`: **when it arrives**.  The empty string counts as unset
  everywhere, so a prefix that is set to it becomes the default.
-/

namespace CodexResetProxy

open PyStr

/-- What `os.getenv` returns. -/
abbrev Environment := String → Option PyStr

/-- `ValueError`, with its text where the source gives it one. -/
inductive ValueError where
  | said (text : String)
  | runtime

/-! ### One variable -/

variable (rt : Runtime) (env : Environment) (name : String)

/-- `_env_optional`. -/
def envOptional : Option PyStr := (env name).filter (· ≠ [])

/-- `_env_required`. -/
def envRequired : Except ValueError PyStr :=
  match envOptional env name with
  | none => .error (.said (name ++ " is required"))
  | some value => .ok value

/-- `_env_str`. -/
def envStr (default : PyStr) : PyStr := (envOptional env name).getD default

/-- A variable that a function of the runtime converts. -/
def envParsed (parse : PyStr → Option α) (default : α) : Except ValueError α :=
  match envOptional env name with
  | none => .ok default
  | some value =>
      match parse value with
      | none => .error .runtime
      | some x => .ok x

/-- `_env_int`. -/
def envInt (default : ℤ) : Except ValueError ℤ := envParsed env name rt.parseInt default

/-- `_env_float`. -/
def envFloat (default : PyFloat) : Except ValueError PyFloat :=
  envParsed env name rt.parseFloat default

/-- `_env_bool`. -/
def envBool (default : Bool) : Except ValueError Bool :=
  match envOptional env name with
  | none => .ok default
  | some value =>
      let normalized := rt.lower (strip value)
      if normalized ∈ [py "1", py "true", py "yes", py "on"] then .ok true
      else if normalized ∈ [py "0", py "false", py "no", py "off"] then .ok false
      else .error (.said (name ++ " must be a boolean"))

/-- `_env_csv_tuple`. -/
def envCsvTuple (default : List PyStr) : Except ValueError (List PyStr) :=
  match envOptional env name with
  | none => .ok default
  | some value =>
      match ((value.splitOn 0x2c).filter fun item => strip item ≠ []).map strip with
      | [] => .error (.said (name ++ " cannot be empty"))
      | parsed => .ok parsed

/-- `_env_csv_tuple_lower`. -/
def envCsvTupleLower (default : List PyStr) : Except ValueError (List PyStr) :=
  (envCsvTuple env name default).map (List.map rt.lower)

/-! ### Checks -/

/-- `_validate_upstream_base_url`. -/
def validateUpstreamBaseUrl (value : PyStr) : Except ValueError Url.SplitResult :=
  match rt.urlsplit value with
  | none => .error .runtime
  | some parsed =>
      if parsed.scheme ∉ [py "http", py "https"] ∨ parsed.netloc = [] then
        .error (.said "UPSTREAM_BASE_URL must be an absolute http:// or https:// URL")
      else .ok parsed

/-- `_validate_listen_protocol`. -/
def validateListenProtocol (value : PyStr) : Except ValueError ListenProtocol :=
  if value = py "http_reverse" then .ok .httpReverse
  else if value = py "socks5_tunnel" then .ok .socks5Tunnel
  else if value = py "socks5_mitm" then .ok .socks5Mitm
  else .error (.said "LISTEN_PROTOCOL must be one of: http_reverse, socks5_tunnel, socks5_mitm")

/-- `_validate_outbound_proxy`, of a proxy that is set. -/
def validateOutboundProxy (value : PyStr) : Except ValueError Unit :=
  let refused : ValueError :=
    .said "OUTBOUND_PROXY must be an absolute socks5:// or socks5h:// URL with host and port"
  match rt.urlsplit value with
  | none => .error .runtime
  | some parsed =>
      if parsed.scheme ∉ [py "socks5", py "socks5h"] ∨ parsed.hostname rt.lower = none then
        .error refused
      else
        match parsed.port with
        | none => .error .runtime
        | some port => if port ∈ [none, some 0] then .error refused else .ok ()

/-- `_validate_transport_mode`. -/
def validateTransportMode (value : PyStr) : Except ValueError TransportMode :=
  if value = py "http" then .ok .http
  else if value = py "websocket_per_request" then .ok .websocketPerRequest
  else .error (.said "TRANSPORT_MODE must be one of: http, websocket_per_request")

/-! ### The settings -/

/-- The value of `UPSTREAM_API_KEY_HEADER`, with its check. -/
def envApiKeyHeader : Except ValueError PyStr :=
  match strip (envStr env "UPSTREAM_API_KEY_HEADER" (py "Authorization")) with
  | [] => .error (.said "UPSTREAM_API_KEY_HEADER cannot be empty")
  | header => .ok header

/-- `Settings.from_env`. -/
def fromEnv : Except ValueError Settings := do
  let cls : Settings := {}
  let upstreamBaseUrl := rstripChar 0x2f (← envRequired env "UPSTREAM_BASE_URL")
  let parsed ← validateUpstreamBaseUrl rt upstreamBaseUrl
  let defaultInterceptHost := (parsed.hostname rt.lower).getD []
  let upstreamApiKeyHeader ← envApiKeyHeader env
  let listenProtocol ←
    validateListenProtocol (envStr env "LISTEN_PROTOCOL" (py "http_reverse"))
  let outboundProxy := envOptional env "OUTBOUND_PROXY"
  outboundProxy.forM (validateOutboundProxy rt)
  let transportMode ← validateTransportMode (envStr env "TRANSPORT_MODE" (py "http"))
  let listenPort ← envInt rt env "LISTEN_PORT" cls.listenPort
  let interceptPaths ← envCsvTuple env "INTERCEPT_PATHS" cls.interceptPaths
  let responseHeaderTimeoutSeconds ←
    envFloat rt env "RESPONSE_HEADER_TIMEOUT_SECONDS" cls.responseHeaderTimeoutSeconds
  let upstreamMaxAttempts ← envInt rt env "UPSTREAM_MAX_ATTEMPTS" cls.upstreamMaxAttempts
  let connectTimeoutSeconds ←
    envFloat rt env "CONNECT_TIMEOUT_SECONDS" cls.connectTimeoutSeconds
  let writeTimeoutSeconds ← envFloat rt env "WRITE_TIMEOUT_SECONDS" cls.writeTimeoutSeconds
  let poolTimeoutSeconds ← envFloat rt env "POOL_TIMEOUT_SECONDS" cls.poolTimeoutSeconds
  let websocketFirstMessageTimeoutSeconds ←
    envFloat rt env "WEBSOCKET_FIRST_MESSAGE_TIMEOUT_SECONDS"
      cls.websocketFirstMessageTimeoutSeconds
  let websocketIdleTimeoutSeconds ←
    envFloat rt env "WEBSOCKET_IDLE_TIMEOUT_SECONDS" cls.websocketIdleTimeoutSeconds
  let websocketProcessedTimeoutSeconds ←
    envFloat rt env "WEBSOCKET_PROCESSED_TIMEOUT_SECONDS" cls.websocketProcessedTimeoutSeconds
  let websocketSendResponseProcessed ←
    envBool rt env "WEBSOCKET_SEND_RESPONSE_PROCESSED" cls.websocketSendResponseProcessed
  let websocketPoolEnabled ← envBool rt env "WEBSOCKET_POOL_ENABLED" cls.websocketPoolEnabled
  let websocketPoolMaxIdle ← envInt rt env "WEBSOCKET_POOL_MAX_IDLE" cls.websocketPoolMaxIdle
  let websocketPoolIdleTimeoutSeconds ←
    envFloat rt env "WEBSOCKET_POOL_IDLE_TIMEOUT_SECONDS" cls.websocketPoolIdleTimeoutSeconds
  let websocketPoolKeyHeaders ←
    envCsvTupleLower rt env "WEBSOCKET_POOL_KEY_HEADERS" cls.websocketPoolKeyHeaders
  let maxRequestBodyBytes ← envInt rt env "MAX_REQUEST_BODY_BYTES" cls.maxRequestBodyBytes
  let retryBackoffSeconds ← envFloat rt env "RETRY_BACKOFF_SECONDS" cls.retryBackoffSeconds
  return {
    upstreamBaseUrl, upstreamApiKeyHeader, listenProtocol, outboundProxy, transportMode,
    interceptPaths, responseHeaderTimeoutSeconds, connectTimeoutSeconds, writeTimeoutSeconds,
    poolTimeoutSeconds, websocketFirstMessageTimeoutSeconds, websocketIdleTimeoutSeconds,
    websocketProcessedTimeoutSeconds, websocketSendResponseProcessed, websocketPoolEnabled,
    websocketPoolKeyHeaders
    upstreamApiKey := envOptional env "UPSTREAM_API_KEY"
    upstreamApiKeyPrefix := envStr env "UPSTREAM_API_KEY_PREFIX" cls.upstreamApiKeyPrefix
    listenHost := envStr env "LISTEN_HOST" cls.listenHost
    listenPort := (max 1 listenPort).toNat
    interceptHost := rt.lower (envStr env "INTERCEPT_HOST" defaultInterceptHost)
    mitmCertDir := envStr env "MITM_CERT_DIR" cls.mitmCertDir
    upstreamMaxAttempts := (max 1 upstreamMaxAttempts).toNat
    websocketPoolMaxIdle := (max 0 websocketPoolMaxIdle).toNat
    websocketPoolIdleTimeoutSeconds := PyFloat.max 0 websocketPoolIdleTimeoutSeconds
    maxRequestBodyBytes := (max 1 maxRequestBodyBytes).toNat
    retryBackoffSeconds := PyFloat.max 0 retryBackoffSeconds
    logLevel := rt.upper (envStr env "LOG_LEVEL" cls.logLevel) }

section FromEnv

variable {rt : Runtime} {env : Environment} {settings : Settings}

/-- The empty string counts as unset. -/
lemma envOptional_of_some {name : String} {value : PyStr} (h : env name = some value) :
    envOptional env name = if value = [] then none else some value := by
  rw [envOptional, h, Option.filter_some]
  split_ifs <;> simp_all

lemma envStr_of_some {name : String} {value default : PyStr} (h : env name = some value) :
    envStr env name default = if value = [] then default else value := by
  rw [envStr, envOptional_of_some h]
  split_ifs <;> rfl

lemma envApiKeyHeader_eq_ok {header : PyStr} (h : envApiKeyHeader env = .ok header) :
    header = strip (envStr env "UPSTREAM_API_KEY_HEADER" (py "Authorization")) := by
  rw [envApiKeyHeader] at h
  split at h
  · cases h
  · exact (Except.ok.inj h).symm

/-- The fields of the key in accepted settings. -/
lemma fromEnv_key (h : fromEnv rt env = .ok settings) :
    settings.upstreamApiKey = envOptional env "UPSTREAM_API_KEY" ∧
      settings.upstreamApiKeyHeader
        = strip (envStr env "UPSTREAM_API_KEY_HEADER" (py "Authorization")) ∧
      settings.upstreamApiKeyPrefix = envStr env "UPSTREAM_API_KEY_PREFIX" (py "Bearer ") := by
  obtain ⟨_, -, h⟩ := Json.bind_eq_ok.mp h
  obtain ⟨_, -, h⟩ := Json.bind_eq_ok.mp h
  obtain ⟨header, hheader, h⟩ := Json.bind_eq_ok.mp h
  iterate 20 obtain ⟨_, -, h⟩ := Json.bind_eq_ok.mp h
  obtain rfl := Except.ok.inj h
  exact ⟨rfl, envApiKeyHeader_eq_ok hheader, rfl⟩

end FromEnv

/-! ### The key on the wire -/

open ByteStr (Bytes)

/-- Whether a header has a name, up to the case of ASCII letters. -/
def HasName (name : PyStr) (h : Bytes × Bytes) : Prop :=
  (decodeLatin1 h.1).map lowerAscii = name.map lowerAscii

instance (name : PyStr) : DecidablePred (HasName name) :=
  fun h => inferInstanceAs (Decidable ((decodeLatin1 h.1).map lowerAscii = name.map lowerAscii))

/-- A list has exactly one header of a name, and `value` is what it says. -/
def OnlyHeader (headers : RawHeaders) (name value : PyStr) : Prop :=
  ∃ h, headers.filter (HasName name) = [h] ∧ decodeLatin1 h.2 = value

/-- What the documentation of the key variables promises for the headers of a
request. -/
def KeyOnWire (settings : Settings) (rawHeaders : RawHeaders) (header keyPrefix apiKey : PyStr) :
    Prop :=
  ∃ headers, filteredRequestHeadersFromRaw settings rawHeaders = some headers ∧
    OnlyHeader headers (strip header) (keyPrefix ++ apiKey)

section KeyOnWire

variable {rt : Runtime} {env : Environment} {settings : Settings}
  {rawHeaders headers : RawHeaders} {h key : Bytes × Bytes} {header keyPrefix apiKey : PyStr}

/-- Names are compared as the filter compares them. -/
lemma hasName_decodeLatin1_iff :
    HasName (decodeLatin1 key.1) h ↔ lowerBytes h.1 = lowerBytes key.1 := by
  rw [HasName, ← decodeLatin1_lowerBytes, ← decodeLatin1_lowerBytes]
  exact decodeLatin1_injective.eq_iff

/-- The only header of the configured name is the one with the key. -/
lemma filter_hasName_key (hkey : settings.apiKey? = some apiKey)
    (hheader : apiKeyHeader settings apiKey = some key)
    (h : filteredRequestHeadersFromRaw settings rawHeaders = some headers) :
    headers.filter (HasName settings.upstreamApiKeyHeader) = [key] := by
  rw [filteredRequestHeadersFromRaw_of_some hkey, hheader, Option.map_some] at h
  obtain rfl := Option.some.inj h
  rw [← (apiKeyHeader_eq_some_iff.mp hheader).1, List.filter_append]
  have hclient : ∀ kept : RawHeaders,
      (kept.filter fun h => lowerBytes h.1 ≠ lowerBytes key.1).filter
        (HasName (decodeLatin1 key.1)) = [] := by
    intro kept
    rw [List.filter_eq_nil_iff]
    intro h hh hname
    have hne := (List.mem_filter.mp hh).2
    exact (of_decide_eq_true hne) (hasName_decodeLatin1_iff.mp (of_decide_eq_true hname))
  rw [hclient]
  simp [hasName_decodeLatin1_iff]

lemma hasName_nil_iff : HasName [] h ↔ h.1 = [] := by
  simp [HasName, decodeLatin1]

/-- A header without a name is not left out. -/
lemma nil_notMem_skipSet : [] ∉ skipSet rawHeaders requestOnlyHeaders := by
  have hfixed : ([] : Bytes) ∉ hopByHopHeaders ++ requestOnlyHeaders := by decide
  intro hmem
  rcases List.mem_append.mp hmem with hmem | hmem
  · exact hfixed hmem
  obtain ⟨h, -, hmem⟩ := List.mem_flatMap.mp hmem
  split_ifs at hmem
  · obtain ⟨part, hpart, hnil⟩ := List.mem_map.mp hmem
    have hstrip : ByteStr.strip part = [] := List.map_eq_nil_iff.mp hnil
    simp [hstrip] at hpart
  · cases hmem

/-- The headers without a name are those of the client. -/
lemma filter_hasName_nil (hkey : settings.apiKey? = some apiKey)
    (hheader : apiKeyHeader settings apiKey = some key) (hname : key.1 ≠ [])
    (h : filteredRequestHeadersFromRaw settings rawHeaders = some headers) :
    headers.filter (HasName []) = rawHeaders.filter (HasName []) := by
  rw [filteredRequestHeadersFromRaw_of_some hkey, hheader, Option.map_some] at h
  obtain rfl := Option.some.inj h
  have hlast : [key].filter (HasName []) = [] := by simp [hasName_nil_iff, hname]
  rw [List.filter_append, hlast, List.append_nil, filterRawHeaders, List.filter_filter,
    List.filter_filter]
  refine List.filter_congr fun h _ => ?_
  by_cases hnil : h.1 = []
  · have hlower : lowerBytes h.1 = [] := by rw [hnil]; rfl
    have hkeyLower : lowerBytes key.1 ≠ [] := fun h => hname (List.map_eq_nil_iff.mp h)
    simp [hasName_nil_iff, hlower, hkeyLower.symm, @nil_notMem_skipSet rawHeaders]
  · simp [hasName_nil_iff, hnil]

lemma exists_apiKeyHeader_iff : (∃ key, apiKeyHeader settings apiKey = some key) ↔
    (∀ c ∈ settings.upstreamApiKeyHeader, c < 0x100) ∧
      ∀ c ∈ settings.upstreamApiKeyPrefix ++ apiKey, c < 0x100 := by
  simp only [← encodeLatin1_isSome_iff, encodeLatin1_eq_some_iff, apiKeyHeader_eq_some_iff,
    Prod.exists, exists_and_left, exists_and_right]

lemma exists_filteredRequestHeadersFromRaw (hkey : settings.apiKey? = some apiKey) :
    (∃ headers, filteredRequestHeadersFromRaw settings rawHeaders = some headers) ↔
      ∃ key, apiKeyHeader settings apiKey = some key := by
  rw [filteredRequestHeadersFromRaw_of_some hkey]
  cases apiKeyHeader settings apiKey <;> simp

/-- **When the configured key arrives as configured.**  A variable that is set to the
empty string counts as unset: an empty prefix becomes the default one, and an empty
header name the default name, so that only the client can have sent it. -/
theorem keyOnWire_iff (haccepted : fromEnv rt env = .ok settings)
    (hkey : env "UPSTREAM_API_KEY" = some apiKey) (hne : apiKey ≠ [])
    (hlatin1 : ∀ c ∈ apiKey, c < 0x100)
    (hheader : env "UPSTREAM_API_KEY_HEADER" = some header)
    (hpre : env "UPSTREAM_API_KEY_PREFIX" = some keyPrefix)
    (hpreLatin1 : ∀ c ∈ keyPrefix, c < 0x100) :
    KeyOnWire settings rawHeaders header keyPrefix apiKey ↔
      if header = [] then OnlyHeader rawHeaders [] (keyPrefix ++ apiKey)
      else keyPrefix ≠ [] ∧ ∀ c ∈ strip header, c < 0x100 := by
  -- what `_env_str` makes of the three variables
  obtain ⟨hk, hn, hp⟩ := fromEnv_key haccepted
  rw [envOptional_of_some hkey, if_neg hne] at hk
  rw [envStr_of_some hheader] at hn
  rw [envStr_of_some hpre] at hp
  have hapi : settings.apiKey? = some apiKey := by simp [Settings.apiKey?, hk, hne]
  have hvalue : ∀ c ∈ settings.upstreamApiKeyPrefix ++ apiKey, c < 0x100 := by
    intro c hc
    rcases List.mem_append.mp hc with hc | hc
    · rw [hp] at hc
      split_ifs at hc with hempty
      · exact (show ∀ c ∈ py "Bearer ", c < 0x100 by decide) c hc
      · exact hpreLatin1 c hc
    · exact hlatin1 c hc
  split_ifs with hempty
  -- an empty header name: the key is sent as `Authorization`
  · have hname : settings.upstreamApiKeyHeader = py "Authorization" := by
      rw [hn, if_pos hempty]; decide +kernel
    obtain ⟨key, hkeyHeader⟩ := exists_apiKeyHeader_iff.mpr ⟨by rw [hname]; decide, hvalue⟩
    obtain ⟨headers, hheaders⟩ :=
      (@exists_filteredRequestHeadersFromRaw settings rawHeaders apiKey hapi).mpr ⟨key, hkeyHeader⟩
    have hnamed : key.1 ≠ [] := by
      intro hnil
      have hdecode := (apiKeyHeader_eq_some_iff.mp hkeyHeader).1
      rw [hnil, hname] at hdecode
      exact absurd hdecode (by decide)
    -- so the headers with the empty name are those of the client
    have hfilter := filter_hasName_nil hapi hkeyHeader hnamed hheaders
    simp [KeyOnWire, OnlyHeader, hheaders, hempty, hfilter, show strip [] = [] from rfl]
  -- any other header name: the value is sent under it
  · have hname : settings.upstreamApiKeyHeader = strip header := by rw [hn, if_neg hempty]
    rw [← hname]
    constructor
    · rintro ⟨headers, hheaders, h, hfilter, hdecode⟩
      obtain ⟨key, hkeyHeader⟩ := (exists_filteredRequestHeadersFromRaw hapi).mp ⟨_, hheaders⟩
      refine ⟨?_, (exists_apiKeyHeader_iff.mp ⟨key, hkeyHeader⟩).1⟩
      rintro rfl
      -- an empty prefix has become one of seven characters
      rw [← hname, filter_hasName_key hapi hkeyHeader hheaders] at hfilter
      obtain rfl := List.singleton_inj.mp hfilter
      rw [(apiKeyHeader_eq_some_iff.mp hkeyHeader).2, hp, if_pos rfl] at hdecode
      have hlength := congrArg List.length hdecode
      rw [List.length_append, List.nil_append, show (py "Bearer ").length = 7 from rfl] at hlength
      omega
    · rintro ⟨hpreNe, hnameLatin1⟩
      obtain ⟨key, hkeyHeader⟩ := exists_apiKeyHeader_iff.mpr ⟨hnameLatin1, hvalue⟩
      obtain ⟨headers, hheaders⟩ :=
        (@exists_filteredRequestHeadersFromRaw settings rawHeaders apiKey hapi).mpr
          ⟨key, hkeyHeader⟩
      refine ⟨headers, hheaders, key, ?_, ?_⟩
      · rw [← hname, filter_hasName_key hapi hkeyHeader hheaders]
      · rw [(apiKeyHeader_eq_some_iff.mp hkeyHeader).2, hp, if_neg hpreNe]

end KeyOnWire

/-- An environment with a key for the header `x-api-key`. -/
def rawKeyEnvironment (keyPrefix : String) : Environment
  | "UPSTREAM_BASE_URL" => some (py "https://api.example/")
  | "UPSTREAM_API_KEY" => some (py "K")
  | "UPSTREAM_API_KEY_HEADER" => some (py "x-api-key")
  | "UPSTREAM_API_KEY_PREFIX" => some (py keyPrefix)
  | _ => none

/-- A client that sends the header itself, and nominates it. -/
def rawKeyHeaders : RawHeaders :=
  [(ascii "X-Api-Key", ascii "client"), (ascii "Connection", ascii "x-api-key")]

/-- With an empty prefix the key arrives behind the default one. -/
theorem not_keyOnWire_emptyPrefix :
    ∃ settings, fromEnv sampleConfig.runtime (rawKeyEnvironment "") = .ok settings ∧
      ¬ KeyOnWire settings rawKeyHeaders (py "x-api-key") [] (py "K") := by
  have hsent : ((fromEnv sampleConfig.runtime (rawKeyEnvironment "")).toOption.bind fun settings =>
      filteredRequestHeadersFromRaw settings rawKeyHeaders)
        = some [(ascii "x-api-key", ascii "Bearer K")] := by decide +kernel
  cases haccepted : fromEnv sampleConfig.runtime (rawKeyEnvironment "") with
  | error e => simp [haccepted, Except.toOption] at hsent
  | ok settings =>
      rw [haccepted] at hsent
      refine ⟨settings, rfl, ?_⟩
      rintro ⟨headers, hheaders, h, hfilter, hvalue⟩
      obtain rfl := Option.some.inj (hsent.symm.trans hheaders)
      obtain rfl := List.singleton_inj.mp
        ((show _ = [(ascii "x-api-key", ascii "Bearer K")] by decide +kernel).symm.trans hfilter)
      exact absurd hvalue (by decide)

/-- With another prefix it replaces what the client sent. -/
theorem keyOnWire_token :
    ∃ settings, fromEnv sampleConfig.runtime (rawKeyEnvironment "Token ") = .ok settings ∧
      KeyOnWire settings rawKeyHeaders (py "x-api-key") (py "Token ") (py "K") := by
  have hok : (fromEnv sampleConfig.runtime (rawKeyEnvironment "Token ")).isOk := by decide +kernel
  cases haccepted : fromEnv sampleConfig.runtime (rawKeyEnvironment "Token ") with
  | error e => simp [haccepted, Except.isOk, Except.toBool] at hok
  | ok settings =>
      exact ⟨settings, rfl, (keyOnWire_iff haccepted rfl (by decide) (by decide) rfl rfl
        (by decide)).mpr (by rw [if_neg (by decide)]; decide +kernel)⟩

end CodexResetProxy
