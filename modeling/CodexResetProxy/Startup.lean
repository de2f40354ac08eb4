import CodexResetProxy.Outbound
import CodexResetProxy.Upstream.Authority

/-!
What the checks of the settings at the start settle for every request.

* `Settings.Accepted`: what holds of the settings that `Settings.from_env` returns.
* `validateOutboundProxy_eq_ok_iff`: the check of `OUTBOUND_PROXY` at the start is the one
  of `open_socks5_socket`.
* `tunnelDestination`: where `default_websocket_connect_factory` asks the proxy to connect to.
* `connects_of_fromEnv`: **a proxy that starts can dial**, and the base URL alone decides
  where its websockets go.
-/

namespace CodexResetProxy

open PyStr Url

/-! ### The settings -/

/-- What holds of accepted settings. -/
structure Settings.Accepted (rt : Runtime) (settings : Settings) : Prop where
  base : ∃ base, validateUpstreamBaseUrl rt settings.upstreamBaseUrl = .ok base
  proxy : ∀ proxyUrl ∈ settings.outboundProxy,
    proxyUrl ≠ [] ∧ validateOutboundProxy rt proxyUrl = .ok ()
  key : settings.upstreamApiKey ≠ some []
  keyHeader : settings.upstreamApiKeyHeader ≠ []
  paths : settings.interceptPaths ≠ [] ∧ ∀ path ∈ settings.interceptPaths, path ≠ []
  listenPort : 1 ≤ settings.listenPort
  attempts : 1 ≤ settings.upstreamMaxAttempts
  bodyLimit : 1 ≤ settings.maxRequestBodyBytes
  poolTimeout : 0 ≤ settings.websocketPoolIdleTimeoutSeconds
  backoff : 0 ≤ settings.retryBackoffSeconds

variable {rt : Runtime} {env : Environment} {cfg : Config} {settings : Settings}
  {base u : SplitResult} {url value : PyStr} {name : String}

lemma envOptional_ne_nil : envOptional env name ≠ some [] := by
  intro h
  have hne := (Option.mem_filter_iff.mp h).2
  exact absurd rfl (of_decide_eq_true hne)

lemma envApiKeyHeader_ne_nil (h : envApiKeyHeader env = .ok value) : value ≠ [] := by
  rw [envApiKeyHeader] at h
  split at h
  · cases h
  · rename_i hne
    obtain rfl := Except.ok.inj h
    exact hne

/-- The items of a list are not empty, as those of its default. -/
lemma envCsvTuple_ne_nil {default items : List PyStr} (h : envCsvTuple env name default = .ok items)
    (hdefault : default ≠ [] ∧ ∀ item ∈ default, item ≠ []) :
    items ≠ [] ∧ ∀ item ∈ items, item ≠ [] := by
  rw [envCsvTuple] at h
  split at h
  · obtain rfl := Except.ok.inj h
    exact hdefault
  · rename_i value _
    split at h
    · cases h
    · rename_i parsed hne
      obtain rfl := Except.ok.inj h
      refine ⟨hne, fun item hitem => ?_⟩
      obtain ⟨raw, hraw, rfl⟩ := List.mem_map.mp hitem
      exact of_decide_eq_true (List.mem_filter.mp hraw).2

/-- **What the checks let through.** -/
theorem accepted_of_fromEnv (h : fromEnv rt env = .ok settings) : settings.Accepted rt := by
  obtain ⟨url, -, h⟩ := Json.bind_eq_ok.mp h
  obtain ⟨base, hbase, h⟩ := Json.bind_eq_ok.mp h
  obtain ⟨header, hheader, h⟩ := Json.bind_eq_ok.mp h
  obtain ⟨_, -, h⟩ := Json.bind_eq_ok.mp h
  obtain ⟨_, hproxy, h⟩ := Json.bind_eq_ok.mp h
  obtain ⟨_, -, h⟩ := Json.bind_eq_ok.mp h
  obtain ⟨_, -, h⟩ := Json.bind_eq_ok.mp h
  obtain ⟨paths, hpaths, h⟩ := Json.bind_eq_ok.mp h
  iterate 15 obtain ⟨_, -, h⟩ := Json.bind_eq_ok.mp h
  obtain rfl := Except.ok.inj h
  constructor
  case base => exact ⟨base, hbase⟩
  case proxy =>
    intro proxyUrl hmem
    have hmem : envOptional env "OUTBOUND_PROXY" = some proxyUrl := hmem
    rw [hmem] at hproxy
    refine ⟨fun hnil => envOptional_ne_nil (hnil ▸ hmem), hproxy⟩
  case key => exact envOptional_ne_nil
  case keyHeader => exact envApiKeyHeader_ne_nil hheader
  case paths => exact envCsvTuple_ne_nil hpaths (by decide)
  case listenPort => simp
  case attempts => simp
  case bodyLimit => simp
  case poolTimeout => exact PyFloat.le_max (by decide) _
  case backoff => exact PyFloat.le_max (by decide) _

/-! ### The proxy -/

/-- **Both checks of the proxy agree.** -/
theorem validateOutboundProxy_eq_ok_iff :
    validateOutboundProxy rt value = .ok () ↔
      ∃ address, Outbound.proxyAddress rt value = .ok address := by
  rw [validateOutboundProxy, Outbound.proxyAddress]
  cases rt.urlsplit value with
  | none => simp
  | some parsed =>
      dsimp only
      by_cases hscheme : parsed.scheme ∈ [py "socks5", py "socks5h"]
      · cases parsed.hostname rt.lower with
        | none => simp [hscheme]
        | some host =>
            rcases parsed.port with _ | _ | port
            · simp [hscheme]
            · simp [hscheme]
            · by_cases hport : port = 0 <;> simp [hscheme, hport]
      · simp [hscheme]

/-- What is dialled is found at the start. -/
lemma Settings.Accepted.dials (h : settings.Accepted rt) (host : PyStr) (port : ℕ) :
    ∃ address, Outbound.dialAddress ⟨settings, rt⟩ host port = .ok address := by
  rw [Outbound.dialAddress]
  cases hproxy : Outbound.proxy? ⟨settings, rt⟩ with
  | none => exact ⟨_, rfl⟩
  | some proxyUrl =>
      have hmem : proxyUrl ∈ settings.outboundProxy := (Option.mem_filter_iff.mp hproxy).1
      exact validateOutboundProxy_eq_ok_iff.mp (h.proxy proxyUrl hmem).2

/-! ### The destination of a websocket -/

/-- The error for a URL without a host. -/
def websocketUrlWithoutHost : BridgeError where
  statusCode := 500
  errorCode := "invalid_websocket_url"
  message := "websocket URL must include a host"

/-- The host and the port of a websocket, from its URL: a port 0 counts as none. -/
def websocketDestination (rt : Runtime) (parsed : SplitResult) : Except Raised (PyStr × ℕ) :=
  match parsed.hostname rt.lower with
  | none => .error (.bridge websocketUrlWithoutHost)
  | some host =>
      match parsed.port with
      | none => .error (.exc (.other "ValueError"))
      | some port =>
          .ok (host, (port.filter (· ≠ 0)).getD (if parsed.scheme = py "wss" then 443 else 80))

/-- `default_websocket_connect_factory`: where the outbound proxy is asked to connect
to, if there is one. -/
def tunnelDestination (cfg : Config) (url : PyStr) : Except Raised (Option (PyStr × ℕ)) :=
  match Outbound.proxy? cfg with
  | none => .ok none
  | some _ =>
      match cfg.runtime.urlsplit url with
      | none => .error (.exc (.other "ValueError"))
      | some parsed => (websocketDestination cfg.runtime parsed).map some

/-- The port that a websocket to the base URL goes to. -/
def basePort (base : SplitResult) (port : Option ℕ) : ℕ :=
  (port.filter (· ≠ 0)).getD (if base.scheme = py "https" then 443 else 80)

/-- The destination of every websocket, as the base URL has it. -/
def baseDestination (cfg : Config) (base : SplitResult) : Except Raised (Option (PyStr × ℕ)) :=
  match Outbound.proxy? cfg, base.hostname cfg.runtime.lower, base.port with
  | none, _, _ => .ok none
  | some _, none, _ => .error (.bridge websocketUrlWithoutHost)
  | some _, some _, none => .error (.exc (.other "ValueError"))
  | some _, some host, some port => .ok (some (host, basePort base port))

/-- The URL of a websocket has the destination of the base URL. -/
lemma tunnelDestination_eq {scheme ws : PyStr} (hscheme : base.scheme ∈ [py "http", py "https"])
    (hws : websocketScheme base.scheme = some scheme)
    (hsame : SameAuthority cfg.runtime base scheme ws) :
    tunnelDestination cfg ws = baseDestination cfg base := by
  obtain ⟨u, hu, hs, -, -, hhost, hport⟩ := hsame.split
  have hdefault : (if u.scheme = py "wss" then 443 else 80)
      = if base.scheme = py "https" then 443 else 80 := by
    rw [hs]
    rcases List.mem_cons.mp hscheme with heq | heq
    · rw [heq] at hws ⊢
      obtain rfl := Option.some.inj ((show websocketScheme (py "http") = some (py "ws") by
        decide).symm.trans hws)
      decide
    · rw [List.mem_singleton.mp heq] at hws ⊢
      obtain rfl := Option.some.inj ((show websocketScheme (py "https") = some (py "wss") by
        decide).symm.trans hws)
      decide
  rw [tunnelDestination, baseDestination]
  cases Outbound.proxy? cfg with
  | none => rfl
  | some proxyUrl =>
      rw [hu]
      dsimp only
      rw [websocketDestination, hhost, hport, hdefault]
      cases base.hostname cfg.runtime.lower with
      | none => rfl
      | some host => cases base.port <;> rfl

/-- The URL of a request has one for its websocket. -/
lemma exists_buildUpstreamWsUrl (hscheme : base.scheme ∈ [py "http", py "https"])
    (h : SameAuthority rt base base.scheme url) : ∃ ws, buildUpstreamWsUrl rt url = .ok ws := by
  obtain ⟨u, hu, hs, -⟩ := h.split
  rw [buildUpstreamWsUrl, hu]
  dsimp only
  rw [hs]
  rcases List.mem_cons.mp hscheme with heq | heq
  · rw [heq]
    exact ⟨_, rfl⟩
  · rw [List.mem_singleton.mp heq]
    exact ⟨_, rfl⟩

/-- What a proxy that has started relies on. -/
structure Connects (cfg : Config) : Prop where
  dials : ∀ host port, ∃ address, Outbound.dialAddress cfg host port = .ok address
  websocket : ∃ base, validateUpstreamBaseUrl cfg.runtime cfg.settings.upstreamBaseUrl = .ok base ∧
    ∀ url, BuiltUrl cfg url → ∃ ws, buildUpstreamWsUrl cfg.runtime url = .ok ws ∧
      tunnelDestination cfg ws = baseDestination cfg base

/-- **A proxy that starts can dial.**  The address of its proxy is known, every URL of a
request has one for a websocket, and all of these have the same destination, or the same error,
whatever the request was. -/
theorem connects_of_fromEnv (h : fromEnv rt env = .ok settings) : Connects ⟨settings, rt⟩ := by
  have haccepted := accepted_of_fromEnv h
  obtain ⟨base, hbase⟩ := haccepted.base
  obtain ⟨-, hscheme, -⟩ := of_validateUpstreamBaseUrl hbase
  refine ⟨haccepted.dials, base, hbase, fun url hurl => ?_⟩
  have hsame : SameAuthority rt base base.scheme url := by
    cases hurl with
    | @intercepted _ path _ => exact upstreamUrl_authority hbase path
    | reverse h => exact buildUpstreamUrl_authority hbase h
  obtain ⟨ws, hws⟩ := exists_buildUpstreamWsUrl hscheme hsame
  obtain ⟨scheme, hwebsocket, hwsSame⟩ := buildUpstreamWsUrl_authority hbase hsame hws
  exact ⟨ws, hws, tunnelDestination_eq hscheme hwebsocket hwsSame⟩

/-- An environment with a proxy, and a base URL without a port. -/
def proxiedEnvironment : Environment
  | "UPSTREAM_BASE_URL" => some (py "https://User@Api.example/v1/")
  | "OUTBOUND_PROXY" => some (py "socks5://10.0.0.1:1080")
  | _ => none

/-- A proxy starts there. -/
theorem connects_proxied :
    ∃ settings, fromEnv sampleConfig.runtime proxiedEnvironment = .ok settings ∧
      Connects ⟨settings, sampleConfig.runtime⟩ := by
  have hok : (fromEnv sampleConfig.runtime proxiedEnvironment).isOk := by decide +kernel
  cases haccepted : fromEnv sampleConfig.runtime proxiedEnvironment with
  | error e => simp [haccepted, Except.isOk, Except.toBool] at hok
  | ok settings => exact ⟨settings, rfl, connects_of_fromEnv haccepted⟩

end CodexResetProxy
