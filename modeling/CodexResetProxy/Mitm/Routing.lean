import CodexResetProxy.Mitm.Endpoint
import CodexResetProxy.Upstream.Endings

/-!
Requests on an intercepted connection whose path is not one of `INTERCEPT_PATHS`.

* `OrdinaryHttp`: such a request is issued at most once, and is not cut short when the
  response headers are late.
* `length_requests_le_one_iff`: when `open_upstream_with_retries` issues at most one
  request.
* `ordinaryHttp_iff`: **when a request is treated as ordinary HTTP.**  The path decides
  whether there is a websocket, and `open_upstream_with_retries` does not see it.
-/

namespace CodexResetProxy

open PyStr ByteStr StreamReader Retry

/-- No special treatment: the request is issued at most once, and no attempt ends with
the timeout for the response headers. -/
structure OrdinaryHttp (up : Upstream) (served : Served) : Prop where
  once : served.requests.length ≤ 1
  unhurried : ∀ k, 1 ≤ k → k ≤ served.requests.length → up.exchange.enter k ≠ .raised .timeout

/-- The first attempt gets headers in time, or fails otherwise and is not followed by
another one. -/
structure SettledAtOnce (cfg : Config) (x : Exchange) : Prop where
  once : cfg.settings.upstreamMaxAttempts ≤ 1 ∨ ¬Retried cfg x 1
  unhurried : x.enter 1 ≠ .raised .timeout

variable {cfg : Config} {x : Exchange} {response : ℕ → UpstreamResponse}
  {request : UpstreamRequest} {method url path : PyStr} {headers : RawHeaders} {body : Bytes}

/-! ### How many requests are issued -/

/-- An attempt issues one request. -/
lemma requestsOf_attemptUpstream (k : ℕ) :
    requestsOf (attemptUpstream cfg x response request k).2 = [request] := by
  rw [attemptUpstream]
  cases x.enter k with
  | headers => rfl
  | raised e =>
      dsimp only
      cases headerError? cfg e with
      | none => rfl
      | some err =>
          dsimp only
          cases x.aclose k <;> rfl

lemma requestsOf_record (k n : ℕ) :
    requestsOf (record (upstreamStep cfg x response request) k () n)
      = List.replicate n request := by
  induction n generalizing k with
  | zero => rfl
  | succ n ih =>
      rw [record, requestsOf_append, ih, upstreamStep, requestsOf_attemptUpstream]
      rfl

lemma record_openUpstreamRecorded :
    (openUpstreamRecorded cfg x response method url headers body).2
      = (run (recorded (upstreamStep cfg x response ⟨method, url, headers, contentOf body⟩))
          cfg.settings.upstreamMaxAttempts 1 ((), []) upstreamRequestFailed).2.2 := by
  rw [openUpstreamRecorded]
  cases run (recorded (upstreamStep cfg x response ⟨method, url, headers, contentOf body⟩))
      cfg.settings.upstreamMaxAttempts 1 ((), []) upstreamRequestFailed with
  | mk outcome p => cases outcome <;> rfl

/-- **The requests of a call**: one for each attempt, up to the first that is not
followed by another. -/
theorem requests_openUpstreamRecorded :
    ∃ n ≤ cfg.settings.upstreamMaxAttempts,
      requestsOf (openUpstreamRecorded cfg x response method url headers body).2
          = List.replicate n ⟨method, url, headers, contentOf body⟩ ∧
        (∀ j, j + 1 < n → Retried cfg x (1 + j)) ∧
        (n < cfg.settings.upstreamMaxAttempts → 1 ≤ n ∧ ¬Retried cfg x n) := by
  rw [record_openUpstreamRecorded]
  set step := upstreamStep cfg x response ⟨method, url, headers, contentOf body⟩ with hstep
  have hretried : ∀ j, (results (recorded step) 1 ((), []) j).isFailed = true ↔
      Retried cfg x (1 + j) := by
    intro j
    rw [results_recorded, results_upstreamStep]
    exact (attemptUpstream_spec (1 + j)).2
  rcases forall_failed_or_first (results (recorded step) 1 ((), []))
      cfg.settings.upstreamMaxAttempts with hall | ⟨i, hi, hstop, hfailed⟩
  · refine ⟨cfg.settings.upstreamMaxAttempts, le_rfl, ?_, ?_, fun h => absurd h (lt_irrefl _)⟩
    · rw [(run_of_forall _ 1 ((), []) upstreamRequestFailed hall).2, states_recorded,
        List.nil_append]
      exact requestsOf_record 1 _
    · exact fun j hj => (hretried j).mp (hall j (by omega))
  · refine ⟨i + 1, hi, ?_, fun j hj => (hretried j).mp (hfailed j (by omega)), fun _ => ?_⟩
    · rw [run_of_first hi 1 ((), []) upstreamRequestFailed hstop hfailed, states_recorded,
        List.nil_append]
      exact requestsOf_record 1 _
    · refine ⟨Nat.succ_pos i, fun h => ?_⟩
      rw [Nat.add_comm, ← hretried, hstop] at h
      exact absurd h Bool.false_ne_true

/-- When at most one request is issued. -/
lemma length_requests_le_one_iff :
    (requestsOf (openUpstreamRecorded cfg x response method url headers body).2).length ≤ 1 ↔
      cfg.settings.upstreamMaxAttempts ≤ 1 ∨ ¬Retried cfg x 1 := by
  obtain ⟨n, hn, hrequests, hretried, hlast⟩ :=
    @requests_openUpstreamRecorded cfg x response method url headers body
  rw [hrequests, List.length_replicate]
  constructor
  · intro hone
    by_cases hmax : cfg.settings.upstreamMaxAttempts ≤ 1
    · exact Or.inl hmax
    · obtain ⟨hpos, hnot⟩ := hlast (by omega)
      obtain rfl : n = 1 := by omega
      exact Or.inr hnot
  · rintro (hmax | hnot)
    · omega
    · by_contra hmany
      exact hnot (hretried 0 (by omega))

/-! ### Requests on other paths -/

variable {up : Upstream} {s t : Stream} {r : HttpRequest}

/-- Plain HTTP on a connection: what `open_upstream_with_retries` issues. -/
lemma requests_writeHttpProxyResponse
    (hheaders : filteredRequestHeadersFromRaw cfg.settings r.headers = some headers) :
    (writeHttpProxyResponse cfg up r path).requests
      = requestsOf (openUpstreamRecorded cfg up.exchange up.response r.method
          (upstreamUrl cfg.settings path) headers r.body).2 := by
  rw [writeHttpProxyResponse, hheaders]
  dsimp only
  cases openUpstreamRecorded cfg up.exchange up.response r.method
      (upstreamUrl cfg.settings path) headers r.body with
  | mk result record =>
      cases result with
      | ok opened => rfl
      | error e => cases e <;> rfl

/-- **When a request on another path is treated as ordinary HTTP**: no attempt is made
for it, or the first one settles it. -/
theorem ordinaryHttp_iff
    (hread : readHttpRequest cfg.settings.maxRequestBodyBytes s = .ok (some r, t))
    (hpath : originPath cfg.runtime r.target = some path)
    (hother : pathMatches cfg.settings path = false) :
    OrdinaryHttp up (handleMitmConnection cfg up s) ↔
      (∀ headers, filteredRequestHeadersFromRaw cfg.settings r.headers = some headers →
        1 ≤ cfg.settings.upstreamMaxAttempts → SettledAtOnce cfg up.exchange) := by
  have hserved : handleMitmConnection cfg up s = writeHttpProxyResponse cfg up r path := by
    rw [handleMitmConnection, hread]
    simp [hpath, hother]
  rw [hserved]
  cases hheaders : filteredRequestHeadersFromRaw cfg.settings r.headers with
  | none =>
      -- the key cannot be encoded, so nothing is sent
      have hnone : writeHttpProxyResponse cfg up r path = {} := by
        rw [writeHttpProxyResponse, hheaders]
      rw [hnone]
      exact iff_of_true
        ⟨Nat.zero_le 1, fun k hpos hk => absurd (hpos.trans hk) (Nat.not_succ_le_zero 0)⟩ (by simp)
  | some headers =>
      have hrequests := @requests_writeHttpProxyResponse cfg path headers up r hheaders
      -- as many requests are sent as attempts are made
      obtain ⟨n, hn, hcount, -, hlast⟩ := @requests_openUpstreamRecorded cfg up.exchange
        up.response r.method (upstreamUrl cfg.settings path) headers r.body
      have honce := @length_requests_le_one_iff cfg up.exchange up.response r.method
        (upstreamUrl cfg.settings path) headers r.body
      have hlength : (writeHttpProxyResponse cfg up r path).requests.length = n := by
        rw [hrequests, hcount, List.length_replicate]
      rw [← hrequests, hlength] at honce
      constructor
      -- one request at most: the first attempt was the last one
      · rintro ⟨hle, hunhurried⟩ - - hpos
        rw [hlength] at hle hunhurried
        have hn1 : 1 ≤ n := by
          by_contra hzero
          exact hzero (hlast (by omega)).1
        exact ⟨honce.mp hle, hunhurried 1 le_rfl hn1⟩
      -- the first attempt settles the call: no other is made
      · intro hsettled
        constructor
        case once =>
          rw [hlength]
          by_cases hpos : 1 ≤ cfg.settings.upstreamMaxAttempts
          · exact honce.mpr (hsettled headers rfl hpos).once
          · omega
        case unhurried =>
          intro k hpos hk
          rw [hlength] at hk
          have hsettled' := hsettled headers rfl (by omega)
          have hle := honce.mpr hsettled'.once
          obtain rfl : k = 1 := by omega
          exact hsettled'.unhurried

/-- A request to a path that is not one of `INTERCEPT_PATHS`. -/
def otherPath : Bytes := ascii "POST /v1/files HTTP/1.1\r\ncontent-length: 2\r\n\r\n\x7b\x7d"

/-- The sample configuration, with `LISTEN_PROTOCOL=socks5_mitm`. -/
def mitmConfig : Config :=
  { sampleConfig with settings := { sampleConfig.settings with listenProtocol := .socks5Mitm } }

/-- It is read, and its path is another one. -/
lemma readHttpRequest_otherPath :
    readHttpRequest mitmConfig.settings.maxRequestBodyBytes ⟨otherPath, false⟩
        = .ok (some ⟨py "POST", py "/v1/files", py "HTTP/1.1",
            [(ascii "content-length", ascii "2")], ascii "\x7b\x7d"⟩, ⟨[], false⟩) ∧
      originPath mitmConfig.runtime (py "/v1/files") = some (py "/v1/files") ∧
      pathMatches mitmConfig.settings (py "/v1/files") = false := by
  decide +kernel

/-- An upstream that has an exchange over HTTP. -/
def upstreamOf (x : Exchange) : Upstream where
  exchange := x
  response := fun _ => ⟨200, []⟩
  course := secondOpens
  pool := none
  later := fun _ => []

/-- The headers are late, and the request is issued again. -/
theorem not_ordinaryHttp_late :
    (handleMitmConnection mitmConfig (upstreamOf lateHeaders) ⟨otherPath, false⟩).requests.length
        = 2 ∧
      ¬OrdinaryHttp (upstreamOf lateHeaders)
        (handleMitmConnection mitmConfig (upstreamOf lateHeaders) ⟨otherPath, false⟩) := by
  have htwo : (handleMitmConnection mitmConfig (upstreamOf lateHeaders)
      ⟨otherPath, false⟩).requests.length = 2 := by decide +kernel
  refine ⟨htwo, fun hordinary => ?_⟩
  have hone := hordinary.once
  omega

/-- The headers come in time. -/
theorem ordinaryHttp_inTime :
    OrdinaryHttp (upstreamOf { lateHeaders with enter := fun _ => .headers })
      (handleMitmConnection mitmConfig
        (upstreamOf { lateHeaders with enter := fun _ => .headers }) ⟨otherPath, false⟩) := by
  obtain ⟨hread, hpath, hother⟩ := readHttpRequest_otherPath
  refine (ordinaryHttp_iff hread hpath hother).mpr fun headers _ _ =>
    ⟨Or.inr ?_, by simp [upstreamOf]⟩
  rintro ⟨e, err, henter, -⟩
  simp [upstreamOf] at henter

end CodexResetProxy
