import CodexResetProxy.Library.ResponseEnd
import CodexResetProxy.Mitm.Responses

/-!
The replies to an intercepted request on the wire, whole and cut off.

* `fixedBytes`: what `_write_fixed_response` writes; `isWhole_iff`: when that is one response.
* `errorsFramed`: **an error that is replied is replied as one response**, unless to `HEAD`.
  Requests that are malformed or too large and exceptions that nobody catches get no reply.
* `isResponse_cut_iff`: **no part of a stream is a response**, where `streamedBytes` is cut off.
-/

namespace CodexResetProxy

open PyStr ByteStr

/-! ### Framing -/

variable {method : Bytes} {statusCode : ℕ} {headers : RawHeaders} {body : Bytes}

lemma bodyFraming_of_bodiless (hbodiless : Bodiless method statusCode) :
    Http1.bodyFraming method statusCode headers = .absent := by
  rw [Http1.bodyFraming]
  split_ifs with hfixed hconnect
  · rfl
  · rfl
  · rcases hbodiless with hhead | hstatus | hstatus | hboth
    · exact absurd (Or.inl hhead) hfixed
    · exact absurd (Or.inr (Or.inr (Or.inl hstatus))) hfixed
    · exact absurd (Or.inr (Or.inr (Or.inr hstatus))) hfixed
    · exact absurd hboth hconnect

/-- Where there may be a body, its framing is up to the headers. -/
lemma not_absent (hfinal : 200 ≤ statusCode) (hbody : ¬Bodiless method statusCode) :
    ¬(method = Http1.text "HEAD" ∨ statusCode < 200 ∨ statusCode = 204 ∨ statusCode = 304) ∧
      ¬(method = Http1.text "CONNECT" ∧ statusCode < 300) := by
  refine ⟨?_, fun h => hbody (Or.inr (Or.inr (Or.inr h)))⟩
  rintro (hhead | hlow | hstatus | hstatus)
  · exact hbody (Or.inl hhead)
  · omega
  · exact hbody (Or.inr (Or.inl hstatus))
  · exact hbody (Or.inr (Or.inr (Or.inl hstatus)))

/-- No header is one of framing. -/
def Unframed (headers : RawHeaders) : Prop :=
  ∀ h ∈ headers, lowerBytes h.1 ∉ [ascii "content-length", ascii "transfer-encoding"]

lemma fieldValues_of_unframed (h : Unframed headers) (more : RawHeaders) :
    Http1.fieldValues "content-length" (headers ++ more)
        = Http1.fieldValues "content-length" more ∧
      Http1.fieldValues "transfer-encoding" (headers ++ more)
        = Http1.fieldValues "transfer-encoding" more := by
  have hnone : ∀ name ∈ ["content-length", "transfer-encoding"],
      headers.filter (fun h => Http1.lower h.1 = Http1.text name) = [] := by
    intro name hname
    refine List.filter_eq_nil_iff.mpr fun x hx heq => h x hx ?_
    have heq : lowerBytes x.1 = ascii name := of_decide_eq_true heq
    rw [heq]
    exact List.mem_map_of_mem (f := ascii) hname
  rw [Http1.fieldValues, Http1.fieldValues, Http1.fieldValues, Http1.fieldValues,
    List.filter_append, List.filter_append, hnone _ (by decide), hnone _ (by decide),
    List.nil_append, List.nil_append]
  exact ⟨rfl, rfl⟩

/-! ### Fixed responses -/

/-- `_write_fixed_response`. -/
def fixedBytes (statusCode : ℕ) (headers : RawHeaders) (body : Bytes) : Bytes :=
  statusLine statusCode ++ crlf ++ headers.flatMap (fun h => headerLine h ++ crlf)
    ++ (ascii "content-length: " ++ format 10 body.length ++ crlf)
    ++ ascii "connection: close\r\n\r\n" ++ body

/-- What is written is one response to the method, with the status, the headers and the
body. -/
def IsWhole (method : Bytes) (statusCode : ℕ) (headers : RawHeaders) (body : Bytes) : Prop :=
  Http1.IsResponse method (fixedBytes statusCode headers body)
    ⟨statusCode, (fixedResponse statusCode headers body).headers, body⟩

lemma fixedBytes_eq : fixedBytes statusCode headers body
    = Http1.lineBytes (statusLine statusCode ::
        (fixedResponse statusCode headers body).headers.map headerLine) ++ Http1.eol ++ body := by
  have hlength : ascii "content-length: " = ascii "content-length" ++ ascii ": " := by
    decide +kernel
  have hclose : ascii "connection: close\r\n\r\n"
      = headerLine (ascii "connection", ascii "close") ++ crlf ++ crlf := by decide +kernel
  rw [fixedBytes, hlength, hclose, fixedResponse]
  simp [Http1.lineBytes, Http1.eol, crlf, List.flatMap_map, headerLine]

/-- The length is that of the body. -/
lemma bodyFraming_fixedResponse (hfinal : 200 ≤ statusCode) (hunframed : Unframed headers)
    (hbody : ¬Bodiless method statusCode) :
    Http1.bodyFraming method statusCode (fixedResponse statusCode headers body).headers
      = .length body.length := by
  obtain ⟨hfixed, hconnect⟩ := not_absent hfinal hbody
  obtain ⟨hlength, hcoding⟩ := fieldValues_of_unframed hunframed
    [(ascii "content-length", format 10 body.length), (ascii "connection", ascii "close")]
  have hnames : Http1.lower (ascii "content-length") = Http1.text "content-length" ∧
      Http1.lower (ascii "connection") ≠ Http1.text "content-length" ∧
      Http1.text "content-length" ≠ Http1.text "transfer-encoding" ∧
      Http1.lower (ascii "connection") ≠ Http1.text "transfer-encoding" := by decide +kernel
  have hown : Http1.fieldValues "content-length" [(ascii "content-length", format 10 body.length),
      (ascii "connection", ascii "close")] = [format 10 body.length] := by
    simp [Http1.fieldValues, hnames]
  have hnone : Http1.fieldValues "transfer-encoding"
      [(ascii "content-length", format 10 body.length), (ascii "connection", ascii "close")]
        = [] := by
    simp [Http1.fieldValues, hnames]
  have hdigits : (format 10 body.length).all (digitValue · < 10) = true :=
    List.all_eq_true.mpr fun c hc => decide_eq_true (digitValue_lt_of_mem_format hc)
  rw [Http1.bodyFraming, if_neg hfixed, if_neg hconnect, fixedResponse]
  dsimp only
  rw [hcoding, hnone, hlength, hown]
  dsimp only [List.getLast?_nil]
  rw [if_pos ⟨format_ne_nil, hdigits, rfl⟩, ofDigits_format (by decide) (by decide)]

/-- **When a fixed response is one response**: there may be a body in it. -/
theorem isWhole_iff (hfinal : 200 ≤ statusCode) (hdigits : statusCode ≤ 999)
    (hfields : ∀ h ∈ headers, IsField h) (hunframed : Unframed headers) (hbody : body ≠ []) :
    IsWhole method statusCode headers body ↔ ¬Bodiless method statusCode := by
  have hstart := isStatusLine_statusLine (by omega : 100 ≤ statusCode) hdigits
  have hown : IsField (ascii "content-length", format 10 body.length) := by
    have hname : ascii "content-length" ≠ [] ∧
        (ascii "content-length").all (Http1.IsTokenChar ·) := by decide +kernel
    have hdigit : ∀ c, digitValue c < 10 → Http1.IsText c ∧ ¬Http1.IsBlank c := by decide +kernel
    exact ⟨⟨hname.1, fun c hc => of_decide_eq_true (List.all_eq_true.mp hname.2 c hc)⟩,
      isFieldValue_of_forall fun c hc => hdigit c (digitValue_lt_of_mem_format hc)⟩
  have hclose : IsField (ascii "connection", ascii "close") := @isField_own _ 0 (by simp)
  have hall : ∀ h ∈ (fixedResponse statusCode headers body).headers, IsField h := by
    intro h hh
    rcases List.mem_append.mp hh with hh | hh
    · exact hfields h hh
    · rcases List.mem_cons.mp hh with rfl | hh
      · exact hown
      · rw [List.mem_singleton.mp hh]
        exact hclose
  have hlines := forall₂_headerLine hall
  constructor
  · intro h hbodiless
    exact hbody (h.of_absent (bodyFraming_of_bodiless hbodiless)
      (Http1.linefeed_notMem_head hstart hlines) fixedBytes_eq)
  · intro hmay
    constructor
    case bytes =>
      refine ⟨_, _, body, hstart, hlines, ?_, fixedBytes_eq⟩
      rw [bodyFraming_fixedResponse hfinal hunframed hmay]
      exact ⟨rfl, rfl⟩
    case coding =>
      rintro (hlow | hstatus)
      · exact absurd hlow (by dsimp only; omega)
      · exact absurd (Or.inr (Or.inl hstatus)) hmay

/-! ### Errors -/

/-- The statuses and the codes of the errors of a websocket. -/
def bridgeErrors : List (ℕ × String) :=
  [(400, "invalid_request_body"), (400, "invalid_request_json"), (500, "invalid_websocket_url"),
    (504, "websocket_open_timeout"), (502, "websocket_open_error"),
    (504, "websocket_first_message_timeout"), (502, "websocket_first_message_error")]

/-- Those of a request over HTTP. -/
def upstreamErrors : List (ℕ × String) :=
  [(502, "upstream_request_failed"), (504, "upstream_header_timeout"), (504, "upstream_timeout"),
    (502, "upstream_request_error")]

/-- The header of an error can be written on a line. -/
lemma errorHeader_spec {code : String}
    (hcode : code ∈ (bridgeErrors ++ upstreamErrors).map Prod.snd) :
    IsField (errorHeader code) ∧ Unframed [errorHeader code] := by
  have hname : ascii "x-codex-reset-proxy-error" ≠ [] ∧
      (ascii "x-codex-reset-proxy-error").all (Http1.IsTokenChar ·) ∧
      lowerBytes (ascii "x-codex-reset-proxy-error") ∉
        [ascii "content-length", ascii "transfer-encoding"] := by decide +kernel
  have hcodes : ∀ code ∈ (bridgeErrors ++ upstreamErrors).map Prod.snd,
      ascii code ≠ [] ∧ (ascii code).all (Http1.IsTokenChar ·) := by decide +kernel
  obtain ⟨hne, htoken⟩ := hcodes code hcode
  refine ⟨⟨⟨hname.1, fun c hc => of_decide_eq_true (List.all_eq_true.mp hname.2.1 c hc)⟩,
    isFieldValue_of_isToken ⟨hne, fun c hc => of_decide_eq_true (List.all_eq_true.mp htoken c hc)⟩⟩,
    fun h hh => ?_⟩
  rw [List.mem_singleton.mp hh]
  exact hname.2.2

lemma unframed_attemptsHeader (attempts : ℕ) : Unframed [attemptsHeader attempts] := by
  have hname : lowerBytes (ascii "x-codex-reset-proxy-attempts") ∉
      [ascii "content-length", ascii "transfer-encoding"] := by decide +kernel
  intro h hh
  rw [List.mem_singleton.mp hh]
  exact hname

/-- The status and the code of an error of a websocket. -/
def BridgeError.Listed (e : BridgeError) : Prop := (e.statusCode, e.errorCode) ∈ bridgeErrors

/-- Of an error that is raised. -/
def Raised.Listed : Raised → Prop
  | .bridge e => e.Listed
  | _ => True

/-- Of an error of a request over HTTP. -/
def UpstreamOpenError.Listed (e : UpstreamOpenError) : Prop :=
  (e.statusCode, e.errorCode) ∈ upstreamErrors

section Listed

open Retry

variable {cfg : Config} {up : Upstream} {url : PyStr}

lemma listed_openError (e : Exc) : (openError e).Listed := by
  cases e <;> simp [openError, BridgeError.Listed, bridgeErrors]

lemma listed_firstMessageError {e : Exc} {err : BridgeError}
    (h : firstMessageError? cfg e = some err) : err.Listed := by
  cases e <;> simp only [firstMessageError?, Option.some.injEq, reduceCtorEq] at h <;>
    subst h <;> simp [firstMessageTimeout, BridgeError.Listed, bridgeErrors]

lemma listed_buildResponseCreateRequest {depth : ℕ} {body : ByteArray} {e : Raised}
    (h : buildResponseCreateRequest depth body = .error e) : e.Listed := by
  rw [buildResponseCreateRequest] at h
  split at h
  · cases h
    simp [Raised.Listed, BridgeError.Listed, bridgeErrors]
  · split at h <;> cases h <;> simp [Raised.Listed, BridgeError.Listed, bridgeErrors]

lemma listed_buildUpstreamWsUrl {rt : Runtime} {e : Raised}
    (h : buildUpstreamWsUrl rt url = .error e) : e.Listed := by
  rw [buildUpstreamWsUrl] at h
  split at h
  · cases h
    trivial
  · split at h
    · cases h
      simp [invalidWebsocketUrl, Raised.Listed, BridgeError.Listed, bridgeErrors]
    · cases h

lemma ends_useRecorded (payload : List (PyStr × Json)) (u : Usage) :
    (useRecorded cfg payload u).1.Ends BridgeError.Listed Raised.Listed := by
  rw [useRecorded]
  cases u.send with
  | some e => exact listed_openError e
  | none =>
      cases u.recv with
      | ok message => trivial
      | error e =>
          dsimp only
          cases h : firstMessageError? cfg e with
          | some err => exact listed_firstMessageError h
          | none => trivial

lemma ends_useSource (x : Course) (r : Request) (payload : List (PyStr × Json)) (source : Source) :
    (useSource cfg x r payload source).1.Ends BridgeError.Listed Raised.Listed := by
  cases source with
  | reused entry => exact ends_useRecorded payload _
  | fresh i =>
      rw [useSource]
      cases (x.fresh i).connect with
      | some e => exact listed_openError e
      | none => exact ends_useRecorded payload _

lemma ends_attemptBridge (x : Course) (r : Request) (pooled : Bool) (k : ℕ) (s : Sockets) :
    (attemptBridge cfg x r pooled k s).1.Ends BridgeError.Listed Raised.Listed := by
  rw [attemptBridge]
  cases hbody : buildResponseCreateRequest cfg.runtime.depth r.body with
  | error e =>
      have hlisted := listed_buildResponseCreateRequest hbody
      cases e with
      | bridge e => exact hlisted
      | _ => trivial
  | ok payload =>
      dsimp only
      exact (ends_useSource x r payload _).map _

/-- **The errors of a websocket** are those that are listed. -/
lemma listed_openBridge {headers? : Option RawHeaders} {body : Bytes} {e : BridgeError}
    (h : (openBridge cfg up url headers? body).1 = .error (.bridge e)) : e.Listed := by
  rw [openBridge.eq_def] at h
  split at h
  · rename_i hurl
    rw [Except.error.inj h] at hurl
    exact listed_buildUpstreamWsUrl hurl
  · cases h
  · rename_i wsUrl _ _
    set r : Request := ⟨0, wsUrl, _, ⟨body.toArray⟩⟩ with hr
    have htimeout : (firstMessageTimeout cfg).Listed := by
      simp [firstMessageTimeout, BridgeError.Listed, bridgeErrors]
    have hstep : ∀ k s, (recorded (attemptBridge cfg up.course r up.pool.isSome) k s).1.Ends
        BridgeError.Listed Raised.Listed := fun k s => ends_attemptBridge _ r _ k s.1
    have hends := run_ends hstep cfg.settings.upstreamMaxAttempts 1
      (⟨up.pool.getD .empty, 0⟩, []) htimeout
    dsimp only at h
    rw [openBridgeRecorded] at h
    split at h
    · cases h
    · rename_i err s hrun
      rw [hrun] at hends
      obtain rfl := Raised.bridge.inj (Except.error.inj h)
      exact hends
    · rename_i raised s hrun
      rw [hrun] at hends
      rw [Except.error.inj h] at hends
      exact hends

lemma listed_headerError {e : HttpExc} {err : UpstreamOpenError}
    (h : headerError? cfg e = some err) : err.Listed := by
  cases e <;> simp only [headerError?, Option.some.injEq, reduceCtorEq] at h <;>
    subst h <;> simp [UpstreamOpenError.Listed, upstreamErrors]

lemma ends_attemptUpstream (x : Exchange) (response : ℕ → UpstreamResponse)
    (request : UpstreamRequest) (k : ℕ) :
    (attemptUpstream cfg x response request k).1.Ends UpstreamOpenError.Listed fun _ => True := by
  rw [attemptUpstream]
  cases x.enter k with
  | headers => trivial
  | raised e =>
      dsimp only
      cases h : headerError? cfg e with
      | none => trivial
      | some err =>
          dsimp only
          cases x.aclose k with
          | none => exact listed_headerError h
          | some e' => trivial

/-- **The errors over HTTP** are those that are listed. -/
lemma listed_openUpstream {method : PyStr} {headers : RawHeaders} {body : Bytes}
    {e : UpstreamOpenError} (h : (openUpstreamRecorded cfg up.exchange up.response method url
      headers body).1 = .error (.inl e)) : e.Listed := by
  have hfailed : upstreamRequestFailed.Listed := by
    simp [upstreamRequestFailed, UpstreamOpenError.Listed, upstreamErrors]
  have hstep : ∀ k s, (recorded (upstreamStep cfg up.exchange up.response
      ⟨method, url, headers, contentOf body⟩) k s).1.Ends UpstreamOpenError.Listed
        fun _ => True :=
    fun k _ => ends_attemptUpstream up.exchange up.response _ k
  have hends := run_ends hstep cfg.settings.upstreamMaxAttempts 1 ((), []) hfailed
  rw [openUpstreamRecorded] at h
  split at h
  · cases h
  · rename_i err s record hrun
    rw [hrun] at hends
    obtain rfl := Sum.inl.inj (Except.error.inj h)
    exact hends
  · cases h

end Listed

/-- A text that ends with a line is not empty. -/
lemma utf8_ne_nil (s : String) : utf8 (s ++ "\n") ≠ [] := by
  rw [utf8, String.toUTF8_eq_toByteArray, String.toByteArray_append, ByteArray.data_append,
    Array.toList_append]
  exact List.append_ne_nil_of_right_ne_nil _ (by decide)

/-- A status that is listed is one of an error. -/
lemma bodiless_iff_of_error (hlow : 300 ≤ statusCode) (hstatus : statusCode ≠ 304) :
    Bodiless method statusCode ↔ method = ascii "HEAD" := by
  constructor
  · rintro (hhead | hstatus' | hstatus' | ⟨-, hlow'⟩)
    · exact hhead
    · omega
    · exact absurd hstatus' hstatus
    · omega
  · exact Or.inl

lemma isWhole_error_iff {code : String}
    (hlisted : (statusCode, code) ∈ bridgeErrors ++ upstreamErrors)
    (hfields : ∀ h ∈ headers, h = errorHeader code ∨ ∃ attempts, h = attemptsHeader attempts)
    (hbody : body ≠ []) : IsWhole method statusCode headers body ↔ method ≠ ascii "HEAD" := by
  have hstatus : ∀ p ∈ bridgeErrors ++ upstreamErrors, 400 ≤ p.1 ∧ p.1 ≤ 999 := by decide
  obtain ⟨hlow, hhigh⟩ := hstatus _ hlisted
  have hcode : code ∈ (bridgeErrors ++ upstreamErrors).map Prod.snd :=
    List.mem_map_of_mem (f := Prod.snd) hlisted
  have hheader : ∀ h ∈ headers, IsField h ∧ Unframed [h] := by
    intro h hh
    rcases hfields h hh with rfl | ⟨attempts, rfl⟩
    · exact errorHeader_spec hcode
    · exact ⟨isField_own List.mem_cons_self, unframed_attemptsHeader attempts⟩
  rw [isWhole_iff (by omega) hhigh (fun h hh => (hheader h hh).1)
    (fun h hh => (hheader h hh).2 h (List.mem_singleton.mpr rfl)) hbody,
    bodiless_iff_of_error (by omega) (by omega)]

/-- What is written for the errors of the MITM front end, one response to any method but
`HEAD`:

* for a method that cannot be bridged;
* for an error of `open_websocket_bridge_with_retries`, one of those that are listed;
* for one of `open_upstream_with_retries`. -/
structure ErrorsFramed (cfg : Config) (up : Upstream) : Prop where
  method : ∀ method, IsWhole method 405 [] (utf8 onlySupportsPost) ↔ method ≠ ascii "HEAD"
  bridge : ∀ url headers? body e, (openBridge cfg up url headers? body).1 = .error (.bridge e) →
    e.Listed ∧ ∀ method, IsWhole method e.statusCode
      [errorHeader e.errorCode, attemptsHeader e.attempts] (utf8 (e.message ++ "\n")) ↔
        method ≠ ascii "HEAD"
  http : ∀ verb url headers body e, (openUpstreamRecorded cfg up.exchange up.response verb url
      headers body).1 = .error (.inl e) →
    e.Listed ∧ ∀ method, IsWhole method e.statusCode [errorHeader e.errorCode] (utf8 e.text) ↔
      method ≠ ascii "HEAD"

/-- **An error that is replied is replied as one response**, and only the reply to `HEAD` is
none. -/
theorem errorsFramed (cfg : Config) (up : Upstream) : ErrorsFramed cfg up := by
  constructor
  case method =>
    intro method
    have hbody : utf8 onlySupportsPost ≠ [] := by decide +kernel
    rw [isWhole_iff (by decide) (by decide) (by simp)
      (fun h hh => absurd hh List.not_mem_nil) hbody,
      bodiless_iff_of_error (by decide) (by decide)]
  case bridge =>
    intro url headers? body e h
    have hlisted := listed_openBridge h
    refine ⟨hlisted, fun method => ?_⟩
    refine isWhole_error_iff (List.mem_append_left _ hlisted) (fun h hh => ?_) (utf8_ne_nil _)
    rcases List.mem_cons.mp hh with rfl | hh
    · exact .inl rfl
    · exact .inr ⟨_, List.mem_singleton.mp hh⟩
  case http =>
    intro verb url headers body e h
    have hlisted := listed_openUpstream h
    refine ⟨hlisted, fun method => ?_⟩
    have htext : utf8 e.text ≠ [] := by
      have hlast : " attempt(s)\n" = " attempt(s)" ++ "\n" := rfl
      rw [UpstreamOpenError.text, hlast, ← String.append_assoc]
      exact utf8_ne_nil _
    exact isWhole_error_iff (List.mem_append_right _ hlisted)
      (fun h hh => .inl (List.mem_singleton.mp hh)) htext

/-! ### Streams that are cut off -/

variable {chunks : List Bytes} {ends : Bool} {b rest : Bytes}

/-- What is still to be written. -/
def unsent (ends : Bool) : Bytes := if ends then [] else 0x30 :: crlf ++ crlf

lemma unsent_eq_nil_iff : unsent ends = [] ↔ ends = true := by
  cases ends <;> simp [unsent]

lemma streamedBytes_append (statusCode : ℕ) (headers : RawHeaders) (chunks : List Bytes)
    (ends : Bool) : streamedBytes statusCode headers chunks ends ++ unsent ends
      = streamingBytes statusCode headers chunks := by
  rw [streamingBytes, streamedBytes, streamedBytes,
    List.append_assoc _ (streamedBody chunks ends)]
  congr 1
  cases ends <;> simp [streamedBody, unsent]

/-- The body of a stream is chunked. -/
lemma bodyFraming_streamingResponse (hfinal : 200 ≤ statusCode)
    (hmay : ¬Bodiless method statusCode) :
    Http1.bodyFraming method statusCode (streamingResponse statusCode headers chunks).headers
      = .chunked := by
  obtain ⟨hfixed, hconnect⟩ := not_absent hfinal hmay
  have hunframed : Unframed (headers.filter fun h => lowerBytes h.1 ∉
      [ascii "content-length", ascii "transfer-encoding", ascii "connection"]) := by
    intro h hh hname
    refine of_decide_eq_true (List.mem_filter.mp hh).2 ?_
    exact List.mem_append_left [ascii "connection"] hname
  obtain ⟨-, hcoding⟩ := fieldValues_of_unframed hunframed
    [(ascii "transfer-encoding", ascii "chunked"), (ascii "connection", ascii "close")]
  have hown : Http1.fieldValues "transfer-encoding"
      [(ascii "transfer-encoding", ascii "chunked"), (ascii "connection", ascii "close")]
        = [ascii "chunked"] := by decide +kernel
  have hchunked : Http1.lower (Http1.trimBlanks (((ascii "chunked").splitOn 0x2c).getLastD []))
      = Http1.text "chunked" := by decide +kernel
  rw [Http1.bodyFraming, if_neg hfixed, if_neg hconnect, streamingResponse]
  dsimp only
  rw [hcoding, hown]
  exact if_pos hchunked

/-- The whole stream is one response. -/
lemma isResponse_streamingBytes (hfinal : 200 ≤ statusCode) (hdigits : statusCode ≤ 999)
    (hmay : ¬Bodiless method statusCode) (hfields : ∀ h ∈ headers, IsField h) :
    Http1.IsResponse method (streamingBytes statusCode headers chunks)
      ⟨statusCode, (streamingResponse statusCode headers chunks).headers, chunks.flatten⟩ := by
  have hall : ∀ h ∈ (streamingResponse statusCode headers chunks).headers, IsField h := by
    intro h hh
    rcases List.mem_append.mp hh with hh | hh
    · exact hfields h (List.mem_filter.mp hh).1
    · exact @isField_own _ 0 (List.mem_cons_of_mem _ hh)
  constructor
  case bytes =>
    refine ⟨_, _, streamedBody chunks true, isStatusLine_statusLine (by omega : 100 ≤ statusCode)
      hdigits, forall₂_headerLine hall, ?_, streamingBytes_eq statusCode headers chunks⟩
    rw [bodyFraming_streamingResponse hfinal hmay]
    exact chunkedBody_streamedBody chunks
  case coding =>
    rintro (hlow | hstatus)
    · exact absurd hlow (by dsimp only; omega)
    · exact absurd (Or.inr (Or.inl hstatus)) hmay

/-- **No part of a stream is a response**: what has been written up to anywhere is one just
when the iterator has ended and all of it is there, and then it is the one with all chunks. -/
theorem isResponse_cut_iff (hfinal : 200 ≤ statusCode) (hdigits : statusCode ≤ 999)
    (hmay : ¬Bodiless method statusCode) (hfields : ∀ h ∈ headers, IsField h)
    (hcut : streamedBytes statusCode headers chunks ends = b ++ rest) (r : Http1.Response) :
    Http1.IsResponse method b r ↔ ends = true ∧ rest = [] ∧
      r = ⟨statusCode, (streamingResponse statusCode headers chunks).headers, chunks.flatten⟩ := by
  have hwhole := @isResponse_streamingBytes method statusCode headers chunks hfinal hdigits hmay
    hfields
  rw [← streamedBytes_append statusCode headers chunks ends, hcut, List.append_assoc] at hwhole
  have hclose : Http1.bodyFraming method statusCode
      (streamingResponse statusCode headers chunks).headers ≠ .untilClose := by
    rw [bodyFraming_streamingResponse hfinal hmay]
    exact Http1.BodyFraming.noConfusion
  constructor
  · intro h
    obtain ⟨hnone, hr⟩ := h.eq_of_append hwhole hclose
    obtain ⟨hrest, hunsent⟩ := List.append_eq_nil_iff.mp hnone
    exact ⟨unsent_eq_nil_iff.mp hunsent, hrest, hr⟩
  · rintro ⟨hends, rfl, rfl⟩
    rw [unsent_eq_nil_iff.mpr hends, List.append_nil, List.append_nil] at hwhole
    exact hwhole

/-- Two chunks, and an empty one. -/
def someChunks : List Bytes := [ascii "a", [], ascii "b"]

/-- The response that they make. -/
def someResponse : Http1.Response :=
  ⟨200, (streamingResponse 200 [] someChunks).headers, ascii "ab"⟩

/-- The stream with its end is that response, and without it is not. -/
theorem isResponse_cut_someChunks :
    Http1.IsResponse (ascii "GET") (streamedBytes 200 [] someChunks true) someResponse ∧
      ¬Http1.IsResponse (ascii "GET") (streamedBytes 200 [] someChunks false) someResponse := by
  have hmay : ¬Bodiless (ascii "GET") 200 := by
    simp [Bodiless]
    decide
  constructor
  · exact (isResponse_cut_iff (by decide) (by decide) hmay (by simp)
      (List.append_nil _).symm someResponse).mpr ⟨rfl, rfl, rfl⟩
  · exact fun h => Bool.false_ne_true ((isResponse_cut_iff (by decide) (by decide) hmay (by simp)
      (List.append_nil _).symm someResponse).mp h).1

end CodexResetProxy
