import CodexResetProxy.Library.Http1
import CodexResetProxy.Mitm.Endpoint

/-!
The bytes of responses on an intercepted connection (`_write_streaming_response`).

* `streamedBytes`: what is written for a status, headers and the chunks of an iterator that
  ends or raises; `streamingBytes`: of one that ends;
  `streamingBytes_eq`: it is the reply of `streamingResponse`, line by line.
* `WellFramed`: the bytes are one response to the method of the request.
* `wellFramed_iff`: **when they are.**  The end of a chunked body is written whether or
  not there may be a body, and header lines are written as they are.
-/

namespace CodexResetProxy

open PyStr ByteStr

/-! ### Writing -/

/-- The phrases of `HTTPStatus`. -/
def httpStatusPhrases : List (ℕ × String) :=
  [(100, "Continue"), (101, "Switching Protocols"), (102, "Processing"), (103, "Early Hints"),
    (200, "OK"), (201, "Created"), (202, "Accepted"), (203, "Non-Authoritative Information"),
    (204, "No Content"), (205, "Reset Content"), (206, "Partial Content"), (207, "Multi-Status"),
    (208, "Already Reported"), (226, "IM Used"), (300, "Multiple Choices"),
    (301, "Moved Permanently"), (302, "Found"), (303, "See Other"), (304, "Not Modified"),
    (305, "Use Proxy"), (307, "Temporary Redirect"), (308, "Permanent Redirect"),
    (400, "Bad Request"), (401, "Unauthorized"), (402, "Payment Required"), (403, "Forbidden"),
    (404, "Not Found"), (405, "Method Not Allowed"), (406, "Not Acceptable"),
    (407, "Proxy Authentication Required"), (408, "Request Timeout"), (409, "Conflict"),
    (410, "Gone"), (411, "Length Required"), (412, "Precondition Failed"),
    (413, "Request Entity Too Large"), (414, "Request-URI Too Long"),
    (415, "Unsupported Media Type"), (416, "Requested Range Not Satisfiable"),
    (417, "Expectation Failed"), (418, "I'm a Teapot"), (421, "Misdirected Request"),
    (422, "Unprocessable Entity"), (423, "Locked"), (424, "Failed Dependency"),
    (425, "Too Early"), (426, "Upgrade Required"), (428, "Precondition Required"),
    (429, "Too Many Requests"), (431, "Request Header Fields Too Large"),
    (451, "Unavailable For Legal Reasons"), (500, "Internal Server Error"),
    (501, "Not Implemented"), (502, "Bad Gateway"), (503, "Service Unavailable"),
    (504, "Gateway Timeout"), (505, "HTTP Version Not Supported"),
    (506, "Variant Also Negotiates"), (507, "Insufficient Storage"), (508, "Loop Detected"),
    (510, "Not Extended"), (511, "Network Authentication Required")]

/-- `_reason_phrase`. -/
def reasonPhrase (statusCode : ℕ) : String :=
  (httpStatusPhrases.lookup statusCode).getD "Unknown"

/-- The status line. -/
def statusLine (statusCode : ℕ) : Bytes :=
  ascii "HTTP/1.1 " ++ format 10 statusCode ++ ascii " " ++ ascii (reasonPhrase statusCode)

/-- The line of a header. -/
def headerLine (h : Bytes × Bytes) : Bytes := h.1 ++ ascii ": " ++ h.2

/-- `_write_streaming_response`, for the chunks that its iterator yields before it ends, or
raises. -/
def streamedBytes (statusCode : ℕ) (headers : RawHeaders) (chunks : List Bytes) (ends : Bool) :
    Bytes :=
  statusLine statusCode ++ crlf
    ++ (headers.filter fun h => lowerBytes h.1 ∉
        [ascii "content-length", ascii "transfer-encoding", ascii "connection"]).flatMap
          (fun h => headerLine h ++ crlf)
    ++ ascii "transfer-encoding: chunked\r\n" ++ ascii "connection: close\r\n\r\n"
    ++ streamedBody chunks ends

/-- `_write_streaming_response`, with an iterator that ends. -/
def streamingBytes (statusCode : ℕ) (headers : RawHeaders) (chunks : List Bytes) : Bytes :=
  streamedBytes statusCode headers chunks true

/-- `_write_http_proxy_response`, for a response that came. -/
def httpProxyBytes (opened : OpenedUpstream) (chunks : List Bytes) : Bytes :=
  streamingBytes opened.response.statusCode
    (filterRawHeaders opened.response.headers [] ++ [attemptsHeader opened.attempts]) chunks

/-! ### What is to be written -/

/-- The upstream headers that are to be forwarded: those that are end-to-end, without
`Content-Length`. -/
def forwardedHeaders (headers : RawHeaders) : RawHeaders :=
  headers.filter fun h => lowerBytes h.1 ∉ hopByHopHeaders ∧ lowerBytes h.1 ∉ nominated headers ∧
    lowerBytes h.1 ≠ ascii "content-length"

/-- The headers of the response: those, and those of the proxy. -/
def responseHeaders (opened : OpenedUpstream) : RawHeaders :=
  forwardedHeaders opened.response.headers ++ [attemptsHeader opened.attempts,
    (ascii "transfer-encoding", ascii "chunked"), (ascii "connection", ascii "close")]

/-- What is written is one response to the method, with the status, the headers and the
body, and nothing is left over. -/
def WellFramed (method : Bytes) (opened : OpenedUpstream) (chunks : List Bytes) : Prop :=
  Http1.IsResponse method (httpProxyBytes opened chunks)
    ⟨opened.response.statusCode, responseHeaders opened, chunks.flatten⟩

/-- A response to which there is no body. -/
def Bodiless (method : Bytes) (statusCode : ℕ) : Prop :=
  method = ascii "HEAD" ∨ statusCode = 204 ∨ statusCode = 304 ∨
    (method = ascii "CONNECT" ∧ statusCode < 300)

variable {method : Bytes} {opened : OpenedUpstream} {chunks : List Bytes} {headers : RawHeaders}
  {statusCode : ℕ}

/-- The two filters leave what is to be forwarded. -/
lemma filter_filterRawHeaders :
    ((filterRawHeaders headers []).filter fun h => lowerBytes h.1 ∉
        [ascii "content-length", ascii "transfer-encoding", ascii "connection"])
      = forwardedHeaders headers := by
  have hhop : ascii "transfer-encoding" ∈ hopByHopHeaders ∧
      ascii "connection" ∈ hopByHopHeaders := by
    decide
  rw [filterRawHeaders, List.filter_filter, forwardedHeaders]
  refine List.filter_congr fun h _ => ?_
  rw [← Bool.decide_and, decide_eq_decide, skipSet, List.append_nil, List.mem_append, not_or]
  simp only [List.mem_cons, List.not_mem_nil, or_false, not_or]
  constructor
  · rintro ⟨⟨hlength, -, -⟩, hfixed, hnominated⟩
    exact ⟨hfixed, hnominated, hlength⟩
  · rintro ⟨hfixed, hnominated, hlength⟩
    exact ⟨⟨hlength, fun h => hfixed (h ▸ hhop.1), fun h => hfixed (h ▸ hhop.2)⟩,
      hfixed, hnominated⟩

/-- The headers that the proxy adds are not left out. -/
lemma filter_attemptsHeader (attempts : ℕ) :
    ([attemptsHeader attempts].filter fun h => lowerBytes h.1 ∉
        [ascii "content-length", ascii "transfer-encoding", ascii "connection"])
      = [attemptsHeader attempts] := by
  have hname : lowerBytes (ascii "x-codex-reset-proxy-attempts") ∉
      [ascii "content-length", ascii "transfer-encoding", ascii "connection"] := by decide +kernel
  exact List.filter_cons_of_pos (decide_eq_true hname)

/-- **What is written**, line by line, for the reply of `streamingResponse`. -/
theorem streamingBytes_eq (statusCode : ℕ) (headers : RawHeaders) (chunks : List Bytes) :
    streamingBytes statusCode headers chunks
      = Http1.lineBytes (statusLine statusCode ::
          (streamingResponse statusCode headers chunks).headers.map headerLine)
        ++ Http1.eol ++ streamedBody chunks true := by
  have hown : ascii "transfer-encoding: chunked\r\n" ++ ascii "connection: close\r\n\r\n"
      = headerLine (ascii "transfer-encoding", ascii "chunked") ++ crlf
        ++ (headerLine (ascii "connection", ascii "close") ++ crlf) ++ crlf := by decide +kernel
  rw [streamingBytes, streamedBytes, List.append_assoc _ (ascii _) (ascii _), hown,
    streamingResponse]
  simp [Http1.lineBytes, Http1.eol, crlf, List.flatMap_map]

/-- The headers of the reply are those that are to be written. -/
lemma headers_streamingResponse :
    (streamingResponse statusCode
      (filterRawHeaders opened.response.headers [] ++ [attemptsHeader opened.attempts])
      chunks).headers = responseHeaders opened := by
  rw [streamingResponse]
  dsimp only
  rw [List.filter_append, filter_filterRawHeaders, filter_attemptsHeader, responseHeaders,
    List.append_assoc]
  rfl

lemma httpProxyBytes_eq : httpProxyBytes opened chunks
    = Http1.lineBytes (statusLine opened.response.statusCode ::
        (responseHeaders opened).map headerLine) ++ Http1.eol ++ streamedBody chunks true := by
  rw [httpProxyBytes, streamingBytes_eq, headers_streamingResponse]

/-! ### The lines -/

lemma isText_reasonPhrase (statusCode : ℕ) :
    ∀ c ∈ ascii (reasonPhrase statusCode), Http1.IsText c := by
  have hall : ∀ p ∈ httpStatusPhrases, (ascii p.2).all (Http1.IsText ·) := by decide +kernel
  have hunknown : (ascii "Unknown").all (Http1.IsText ·) := by decide +kernel
  have htext : (ascii (reasonPhrase statusCode)).all (Http1.IsText ·) := by
    rw [reasonPhrase]
    cases hlookup : httpStatusPhrases.lookup statusCode with
    | none => exact hunknown
    | some phrase =>
        obtain ⟨pre, post, hsplit, -⟩ := List.lookup_eq_some_iff.mp hlookup
        exact hall (statusCode, phrase) (by simp [hsplit])
  intro c hc
  exact of_decide_eq_true (List.all_eq_true.mp htext c hc)

/-- The digits of a number in base 10. -/
lemma digitValue_lt_of_mem_format {n : ℕ} {c : UInt8} (h : c ∈ format 10 n) :
    digitValue c < 10 := by
  rw [format] at h
  split_ifs at h
  · obtain rfl := List.mem_singleton.mp h
    decide
  · obtain ⟨d, hd, rfl⟩ := List.mem_map.mp h
    have hlt : d < 10 := Nat.digits_lt_base (by decide) (List.mem_reverse.mp hd)
    rw [(digitByte_spec d (by omega)).1]
    exact hlt

lemma isStatusLine_statusLine (hlow : 100 ≤ statusCode) (hhigh : statusCode ≤ 999) :
    Http1.IsStatusLine (statusLine statusCode) statusCode := by
  refine ⟨format 10 statusCode, ascii (reasonPhrase statusCode), ?_,
    fun c hc => digitValue_lt_of_mem_format hc, ofDigits_format (by decide) (by decide) statusCode,
    isText_reasonPhrase statusCode, ?_⟩
  · have hle := (Nat.digits_length_le_iff (b := 10) (k := 3) (by decide) statusCode).mpr (by omega)
    have hlt := (Nat.lt_digits_length_iff (b := 10) (k := 2) (by decide) statusCode).mpr (by omega)
    rw [format, if_neg (by omega), List.length_map, List.length_reverse]
    omega
  · rw [statusLine, List.append_assoc _ (ascii " ")]
    rfl

/-- A header that can be written on a line. -/
def IsField (h : Bytes × Bytes) : Prop := Http1.IsToken h.1 ∧ Http1.IsFieldValue h.2

lemma isFieldLine_headerLine {h : Bytes × Bytes} (hfield : IsField h) :
    Http1.IsFieldLine (headerLine h) h.1 h.2 := by
  refine ⟨hfield.1, hfield.2, [0x20], [], by simp [Http1.IsBlanks, Http1.IsBlank],
    by simp [Http1.IsBlanks], ?_⟩
  rw [headerLine, List.append_nil, List.append_assoc]
  rfl

/-- Characters that are text and no blanks make a value. -/
lemma isFieldValue_of_forall {s : Bytes} (h : ∀ c ∈ s, Http1.IsText c ∧ ¬Http1.IsBlank c) :
    Http1.IsFieldValue s :=
  ⟨fun c hc => (h c hc).1, fun c hc => (h c (List.mem_of_mem_head? hc)).2,
    fun c hc => (h c (List.mem_of_mem_getLast? hc)).2⟩

lemma isFieldValue_of_isToken {s : Bytes} (h : Http1.IsToken s) : Http1.IsFieldValue s := by
  have htoken : ∀ c, Http1.IsTokenChar c → Http1.IsText c ∧ ¬Http1.IsBlank c := by decide +kernel
  exact isFieldValue_of_forall fun c hc => htoken c (h.2 c hc)

lemma digitValue_lt_of_mem_toString {n : ℕ} {c : UInt8} (h : c ∈ ascii (toString n)) :
    digitValue c < 10 := by
  obtain ⟨p, hp, rfl⟩ := List.mem_map.mp h
  obtain ⟨d, hd, rfl⟩ := List.mem_map.mp hp
  have hdigit : d.isDigit = true := by
    refine Nat.isDigit_of_mem_toDigits (by decide) (by decide) (?_ : d ∈ Nat.toDigits 10 n)
    rwa [← Nat.toList_repr]
  have hcode : 48 ≤ d.toNat ∧ d.toNat < 58 := by
    simp only [Char.isDigit, Bool.and_eq_true, decide_eq_true_eq, UInt32.le_iff_toNat_le] at hdigit
    exact ⟨hdigit.1, Nat.lt_succ_of_le hdigit.2⟩
  have hall : ∀ k < 58, 48 ≤ k → digitValue (UInt8.ofNat k) < 10 := by decide
  exact hall _ hcode.2 hcode.1

/-- The headers of the proxy can be written on lines. -/
lemma isField_own {h : Bytes × Bytes} {attempts : ℕ} (hmem : h ∈ [attemptsHeader attempts,
    (ascii "transfer-encoding", ascii "chunked"), (ascii "connection", ascii "close")]) :
    IsField h := by
  have htoken : ∀ s ∈ [ascii "x-codex-reset-proxy-attempts", ascii "transfer-encoding",
      ascii "chunked", ascii "connection", ascii "close"], Http1.IsToken s := by
    have hall : ∀ s ∈ [ascii "x-codex-reset-proxy-attempts", ascii "transfer-encoding",
        ascii "chunked", ascii "connection", ascii "close"],
        s ≠ [] ∧ s.all (Http1.IsTokenChar ·) := by decide +kernel
    exact fun s hs => ⟨(hall s hs).1, fun c hc =>
      of_decide_eq_true (List.all_eq_true.mp (hall s hs).2 c hc)⟩
  simp only [List.forall_mem_cons] at htoken
  obtain ⟨hattempts, hcoding, hchunked, hconnection, hclose, -⟩ := htoken
  have hdigit : ∀ c, digitValue c < 10 → Http1.IsText c ∧ ¬Http1.IsBlank c := by decide +kernel
  simp only [List.mem_cons, List.not_mem_nil, or_false] at hmem
  rcases hmem with rfl | rfl | rfl
  · exact ⟨hattempts,
      isFieldValue_of_forall fun c hc => hdigit c (digitValue_lt_of_mem_toString hc)⟩
  · exact ⟨hcoding, isFieldValue_of_isToken hchunked⟩
  · exact ⟨hconnection, isFieldValue_of_isToken hclose⟩

/-! ### The body -/

/-- The size of a chunk can be written on a line. -/
lemma isSizeLine_format (n : ℕ) : Http1.IsSizeLine (format 16 n) n := by
  refine ⟨format 16 n, [], format_ne_nil, fun c hc => ?_, .nil,
    ofDigits_format (by decide) le_rfl n, (List.append_nil _).symm⟩
  obtain ⟨d, hd, rfl⟩ := mem_format (by decide) le_rfl hc
  rw [(digitByte_spec d hd).1]
  exact hd

/-- The body that is written encodes the chunks. -/
lemma chunkedBody_streamedBody (chunks : List Bytes) :
    Http1.ChunkedBody (streamedBody chunks true) chunks.flatten := by
  induction chunks with
  | nil => exact .last (isSizeLine_format 0) .nil
  | cons chunk chunks ih =>
      have hstream : streamedBody (chunk :: chunks) true
          = writeChunk chunk ++ streamedBody chunks true := by
        simp [streamedBody]
      rw [hstream, List.flatten_cons, writeChunk]
      split_ifs with hempty
      · rw [hempty]
        exact ih
      · exact .chunk (isSizeLine_format chunk.length) hempty ih

lemma streamedBody_ne_nil (chunks : List Bytes) : streamedBody chunks true ≠ [] := by
  simp [streamedBody]

/-! ### Framing -/

/-- The one transfer coding is that of the proxy. -/
lemma fieldValues_responseHeaders :
    Http1.fieldValues "transfer-encoding" (responseHeaders opened) = [ascii "chunked"] := by
  have hforwarded : (forwardedHeaders opened.response.headers).filter
      (fun h => Http1.lower h.1 = Http1.text "transfer-encoding") = [] := by
    refine List.filter_eq_nil_iff.mpr fun h hh heq => ?_
    have hhop := (of_decide_eq_true (List.mem_filter.mp hh).2).1
    exact hhop ((of_decide_eq_true heq : lowerBytes h.1 = ascii "transfer-encoding") ▸ by decide)
  have hname : Http1.lower (attemptsHeader opened.attempts).1 ≠ Http1.text "transfer-encoding" := by
    have hne : Http1.lower (ascii "x-codex-reset-proxy-attempts")
        ≠ Http1.text "transfer-encoding" := by decide +kernel
    exact hne
  have hown : [(ascii "transfer-encoding", ascii "chunked"),
      (ascii "connection", ascii "close")].filter
        (fun h => Http1.lower h.1 = Http1.text "transfer-encoding")
        = [(ascii "transfer-encoding", ascii "chunked")] := by decide +kernel
  rw [Http1.fieldValues, responseHeaders, List.filter_append, hforwarded,
    List.filter_cons_of_neg (by simpa using hname), hown]
  rfl

/-- How the end of the body is found. -/
lemma bodyFraming_responseHeaders (hfinal : 200 ≤ statusCode) :
    (Bodiless method statusCode →
        Http1.bodyFraming method statusCode (responseHeaders opened) = .absent) ∧
      (¬Bodiless method statusCode →
        Http1.bodyFraming method statusCode (responseHeaders opened) = .chunked) := by
  have hchunked : Http1.lower (Http1.trimBlanks (((ascii "chunked").splitOn 0x2c).getLastD []))
      = Http1.text "chunked" := by decide +kernel
  rw [Http1.bodyFraming, fieldValues_responseHeaders]
  constructor
  · rintro (hhead | hstatus | hstatus | ⟨hconnect, hlow⟩)
    · exact if_pos (Or.inl hhead)
    · exact if_pos (Or.inr (Or.inr (Or.inl hstatus)))
    · exact if_pos (Or.inr (Or.inr (Or.inr hstatus)))
    · split_ifs with hfixed hfixed'
      · rfl
      · rfl
      · exact absurd ⟨hconnect, hlow⟩ hfixed'
  · intro hbody
    have hfixed : ¬(method = Http1.text "HEAD" ∨ statusCode < 200 ∨ statusCode = 204 ∨
        statusCode = 304) := by
      rintro (hhead | hlow | hstatus | hstatus)
      · exact hbody (Or.inl hhead)
      · omega
      · exact hbody (Or.inr (Or.inl hstatus))
      · exact hbody (Or.inr (Or.inr (Or.inl hstatus)))
    have hconnect : ¬(method = Http1.text "CONNECT" ∧ statusCode < 300) := fun h =>
      hbody (Or.inr (Or.inr (Or.inr h)))
    rw [if_neg hfixed, if_neg hconnect]
    exact if_pos hchunked

/-- Lines that make the headers are there just when the headers can be written. -/
lemma forall₂_headerLine (hfields : ∀ h ∈ headers, IsField h) :
    List.Forall₂ (fun line h => Http1.IsFieldLine line h.1 h.2) (headers.map headerLine)
      headers := by
  refine List.forall₂_map_left_iff.mpr (List.forall₂_same.mpr fun h hh => ?_)
  exact isFieldLine_headerLine (hfields h hh)

/-- The headers of a response that is well framed can be written on lines. -/
lemma WellFramed.isField (h : WellFramed method opened chunks) :
    ∀ h ∈ responseHeaders opened, IsField h := by
  obtain ⟨start, lines, content, -, hlines, -, -⟩ := h.bytes
  have hboth : List.Forall₂ (fun h line => IsField h ∧ Http1.IsFieldLine line h.1 h.2)
      (responseHeaders opened) lines :=
    hlines.flip.imp fun h line hline => ⟨⟨hline.name_token, hline.isValue⟩, hline⟩
  exact ((List.forall₂_and_left _ _).mp hboth).1

/-- There may be a body in it: the end of one is always written. -/
lemma WellFramed.not_bodiless (h : WellFramed method opened chunks)
    (hfinal : 200 ≤ opened.response.statusCode) (hdigits : opened.response.statusCode ≤ 999) :
    ¬Bodiless method opened.response.statusCode := by
  intro hbodiless
  have hstart := isStatusLine_statusLine (by omega : 100 ≤ opened.response.statusCode) hdigits
  have hhead := Http1.linefeed_notMem_head hstart (forall₂_headerLine h.isField)
  have habsent := (@bodyFraming_responseHeaders method opened _ hfinal).1 hbodiless
  exact streamedBody_ne_nil chunks (h.of_absent habsent hhead httpProxyBytes_eq)

/-- **When a response is well framed**: there may be a body, and the headers can be
written on lines. -/
theorem wellFramed_iff (hfinal : 200 ≤ opened.response.statusCode)
    (hdigits : opened.response.statusCode ≤ 999) :
    WellFramed method opened chunks ↔ ¬Bodiless method opened.response.statusCode ∧
      ∀ h ∈ forwardedHeaders opened.response.headers, IsField h := by
  constructor
  · intro h
    exact ⟨h.not_bodiless hfinal hdigits, fun p hp => h.isField p (List.mem_append_left _ hp)⟩
  · rintro ⟨hbody, hfields⟩
    have hstart := isStatusLine_statusLine (by omega : 100 ≤ opened.response.statusCode) hdigits
    have hchunked := (@bodyFraming_responseHeaders method opened _ hfinal).2 hbody
    have hall : ∀ h ∈ responseHeaders opened, IsField h := fun h hh => by
      rcases List.mem_append.mp hh with hh | hh
      · exact hfields h hh
      · exact isField_own hh
    constructor
    case bytes =>
      refine ⟨_, _, _, hstart, forall₂_headerLine hall, ?_, httpProxyBytes_eq⟩
      rw [hchunked]
      exact chunkedBody_streamedBody chunks
    case coding =>
      rintro (hlow | hstatus)
      · exact absurd hlow (by dsimp only; omega)
      · exact absurd (Or.inr (Or.inl hstatus)) hbody

/-- A response without headers. -/
def plainResponse : OpenedUpstream := ⟨⟨200, []⟩, 1⟩

/-- The response to `HEAD` is followed by the end of a body. -/
theorem not_wellFramed_head : ¬WellFramed (ascii "HEAD") plainResponse [] := fun h =>
  h.not_bodiless (by decide) (by decide) (Or.inl rfl)

/-- The one to `GET` is not. -/
theorem wellFramed_get : WellFramed (ascii "GET") plainResponse [ascii "a", [], ascii "b"] :=
  (wellFramed_iff (by decide) (by decide)).mpr ⟨by simp [Bodiless, plainResponse]; decide,
    by simp [plainResponse, forwardedHeaders]⟩

end CodexResetProxy
