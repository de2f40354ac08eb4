import CodexResetProxy.Mitm.Chunked
import CodexResetProxy.Upstream.Headers

/-!
Requests on an intercepted connection (`_read_http_request`).

* `readHttpRequest`: the reader, with every exception it can raise.
* `HeaderFields.addLine`: the loop over the lines of the header block, which keeps
  the last length and whether any encoding is chunked;
  `readHeaderLines_eq_some`: what it keeps, in terms of the headers.
* `readHttpRequest_eq_ok`: what is known of a request that was read.
-/

namespace CodexResetProxy

open PyStr ByteStr StreamReader

/-- `HttpRequest`. -/
structure HttpRequest where
  method : PyStr
  target : PyStr
  version : PyStr
  headers : RawHeaders
  body : Bytes
  deriving DecidableEq

/-- `MAX_HTTP_HEADER_BYTES`. -/
def maxHttpHeaderBytes : ℕ := 128 * 1024

/-- The text for a header block that is too large. -/
def headersTooLarge : RequestBodyTooLarge :=
  ⟨"request headers exceed " ++ toString maxHttpHeaderBytes ++ " bytes"⟩

/-! ### The header block -/

/-- The read of the header block, where the end of the stream is no error. -/
def readHeaderBlock : Mitm (Option Bytes) := fun s =>
  match (readuntil streamLimit (crlf ++ crlf) : Mitm Bytes) s with
  | .ok (block, t) => .ok (some block, t)
  | .error (.incomplete _) => .ok (none, { s with bytes := [] })
  | .error why => .error why

/-- `bytes.split` at CRLF. -/
def splitCrlf : Bytes → List Bytes
  | [] => [[]]
  | [c] => [[c]]
  | c :: d :: s =>
      if c = 0x0d ∧ d = 0x0a then [] :: splitCrlf s
      else (splitCrlf (d :: s)).modifyHead (c :: ·)

/-- `bytes.partition` at a colon. -/
def cutColon (line : Bytes) : Bytes × Option Bytes :=
  match line.dropWhile (· ≠ 0x3a) with
  | [] => (line, none)
  | _ :: value => (line.takeWhile (· ≠ 0x3a), some value)

/-- What the loop over the header lines keeps. -/
structure HeaderFields where
  headers : RawHeaders := []
  contentLength : ℤ := 0
  chunked : Bool := false

/-- A `Content-Length` header. -/
def IsContentLength (h : Bytes × Bytes) : Prop := lowerBytes h.1 = ascii "content-length"

instance : DecidablePred IsContentLength :=
  fun h => inferInstanceAs (Decidable (lowerBytes h.1 = ascii "content-length"))

/-- A `Transfer-Encoding` header that says `chunked` somewhere. -/
def IsChunked (h : Bytes × Bytes) : Prop :=
  lowerBytes h.1 = ascii "transfer-encoding" ∧ (find (ascii "chunked") (lowerBytes h.2)).isSome

instance : DecidablePred IsChunked :=
  fun h => inferInstanceAs (Decidable (lowerBytes h.1 = ascii "transfer-encoding" ∧
    (find (ascii "chunked") (lowerBytes h.2)).isSome))

/-- The iteration of the loop for one line, with `none` for a `ValueError`. -/
def HeaderFields.addLine (f : HeaderFields) (line : Bytes) : Option HeaderFields :=
  if line = [] then some f
  else
    match cutColon line with
    | (_, none) => none
    | (name, some value) =>
        let h := (name, lstrip value)
        let headers := f.headers ++ [h]
        if IsContentLength h then
          (pyInt 10 h.2).map fun n => { f with headers, contentLength := n }
        else if IsChunked h then some { f with headers, chunked := true }
        else some { f with headers }

/-- The loop. -/
def readHeaderLines (lines : List Bytes) : Option HeaderFields :=
  lines.foldlM HeaderFields.addLine {}

/-! ### The request -/

/-- The body that the headers announce. -/
def readBody (maxBodyBytes : ℕ) (f : HeaderFields) : Mitm Bytes :=
  if f.chunked then readChunkedBody maxBodyBytes
  else if maxBodyBytes < f.contentLength then stop (.raised (bodyTooLarge maxBodyBytes))
  else if f.contentLength = 0 then return []
  else readexactly f.contentLength

/-- The parts of the request line. -/
def requestLineParts (line : Bytes) : Option (PyStr × PyStr × PyStr) :=
  match (decodeLatin1 line).splitOn 0x20 with
  | [method, target, version] => some (method, target, version)
  | _ => none

/-- `header_lines`: the lines of a header block, the request line being the first. -/
def headerLines (block : Bytes) : List Bytes := splitCrlf (block.take (block.length - 4))

/-- The rest of a request whose header block has been read. -/
def readAfterBlock (maxBodyBytes : ℕ) (block : Bytes) : Mitm HttpRequest :=
  if maxHttpHeaderBytes < block.length then stop (.raised headersTooLarge)
  else
    match requestLineParts ((headerLines block).headD []) with
    | none => stop .value
    | some (method, target, version) =>
        match readHeaderLines (headerLines block).tail with
        | none => stop .value
        | some f => do
            let body ← readBody maxBodyBytes f
            return { method, target, version, headers := f.headers, body }

/-- `_read_http_request`. -/
def readHttpRequest (maxBodyBytes : ℕ) : Mitm (Option HttpRequest) := do
  match ← readHeaderBlock with
  | none => return none
  | some block => some <$> readAfterBlock maxBodyBytes block

/-! ### What the loop keeps -/

/-- The header that a line holds. -/
def headerOf (line : Bytes) : Bytes × Bytes :=
  ((cutColon line).1, lstrip ((cutColon line).2.getD []))

/-- The headers that lines hold. -/
def headersOf (lines : List Bytes) : RawHeaders := (lines.filter (· ≠ [])).map headerOf

/-- The number of the last `Content-Length` header, 0 if there is none. -/
def lastContentLength (headers : RawHeaders) : ℤ :=
  match (headers.filter IsContentLength).getLast? with
  | none => 0
  | some h => (pyInt 10 h.2).getD 0

/-- What the loop keeps for a list of headers. -/
def HeaderFields.ofHeaders (headers : RawHeaders) : HeaderFields where
  headers := headers
  contentLength := lastContentLength headers
  chunked := headers.any (IsChunked ·)

lemma not_isChunked_of_isContentLength {h : Bytes × Bytes} (hh : IsContentLength h) :
    ¬IsChunked h := by
  rintro ⟨hname, -⟩
  exact absurd (hh.symm.trans hname) (by decide)

lemma lastContentLength_append {headers : RawHeaders} {h : Bytes × Bytes} :
    lastContentLength (headers ++ [h])
      = if IsContentLength h then (pyInt 10 h.2).getD 0 else lastContentLength headers := by
  by_cases hh : IsContentLength h
  · simp [lastContentLength, hh]
  · simp [lastContentLength, hh]

/-- One line adds its header. -/
lemma HeaderFields.addLine_ofHeaders {headers : RawHeaders} {line : Bytes} {f : HeaderFields}
    (h : (HeaderFields.ofHeaders headers).addLine line = some f) :
    f = .ofHeaders (headers ++ headersOf [line]) := by
  rw [addLine] at h
  split_ifs at h with hempty
  · obtain rfl := Option.some.inj h
    simp [headersOf, hempty]
  · have hheader : headersOf [line] = [headerOf line] := by simp [headersOf, hempty]
    rw [hheader]
    cases hcut : cutColon line with
    | mk name value =>
        cases value with
        | none => simp [hcut] at h
        | some value =>
            have hline : headerOf line = (name, lstrip value) := by rw [headerOf, hcut]; rfl
            rw [hcut] at h
            dsimp only at h
            rw [← hline, show lstrip value = (headerOf line).2 by rw [hline]] at h
            rw [ofHeaders, lastContentLength_append, List.any_append]
            split_ifs at h ⊢ with hlength hchunked
            · obtain ⟨n, hn, rfl⟩ := Option.map_eq_some_iff.mp h
              simp [ofHeaders, hn, not_isChunked_of_isContentLength hlength]
            · obtain rfl := Option.some.inj h
              simp [ofHeaders, hchunked]
            · obtain rfl := Option.some.inj h
              simp [ofHeaders, hchunked]

/-- **What the loop keeps.** -/
theorem readHeaderLines_eq_some {lines : List Bytes} {f : HeaderFields}
    (h : readHeaderLines lines = some f) : f = .ofHeaders (headersOf lines) := by
  have hloop : ∀ {headers : RawHeaders} {lines : List Bytes},
      lines.foldlM HeaderFields.addLine (.ofHeaders headers) = some f →
        f = .ofHeaders (headers ++ headersOf lines) := by
    intro headers lines
    induction lines generalizing headers with
    | nil =>
        intro h
        simpa [headersOf] using (Option.some.inj h).symm
    | cons line lines ih =>
        intro h
        rw [List.foldlM_cons] at h
        obtain ⟨g, hg, h⟩ := Option.bind_eq_some_iff.mp h
        rw [HeaderFields.addLine_ofHeaders hg] at h
        have hcons : headersOf (line :: lines) = headersOf [line] ++ headersOf lines := by
          rw [headersOf, headersOf, headersOf, ← List.map_append, ← List.filter_append]
          rfl
        rw [hcons, ← List.append_assoc]
        exact ih h
  exact @hloop [] lines h

/-! ### What is read -/

variable {limit : ℕ} {block : Bytes} {request : HttpRequest} {s t : Stream}

lemma readHeaderBlock_eq_ok (h : readHeaderBlock s = .ok (some block, t)) :
    (readuntil streamLimit (crlf ++ crlf) : Mitm Bytes) s = .ok (block, t) := by
  rw [readHeaderBlock] at h
  split at h
  · rename_i block' t' hr
    rw [hr]
    simpa using h
  · simp at h
  · simp at h

/-- A request of a header block. -/
lemma readAfterBlock_eq_ok (h : readAfterBlock limit block s = .ok (request, t)) :
    requestLineParts ((headerLines block).headD [])
        = some (request.method, request.target, request.version) ∧
      readHeaderLines (headerLines block).tail = some (.ofHeaders request.headers) ∧
      request.headers = headersOf (headerLines block).tail ∧
      readBody limit (.ofHeaders request.headers) s = .ok (request.body, t) := by
  rw [readAfterBlock] at h
  split_ifs at h with hlarge
  · simp at h
  cases hparts : requestLineParts ((headerLines block).headD []) with
  | none =>
      rw [hparts] at h
      simp at h
  | some parts =>
      cases hfields : readHeaderLines (headerLines block).tail with
      | none =>
          rw [hparts, hfields] at h
          simp at h
      | some f =>
          simp only [hparts, hfields] at h
          obtain ⟨body, u, hbody, h⟩ := bind_eq_ok.mp h
          obtain ⟨rfl, rfl⟩ := Prod.mk.inj (Except.ok.inj h)
          obtain rfl := readHeaderLines_eq_some hfields
          exact ⟨rfl, rfl, rfl, hbody⟩

/-- **A request that is read**: its header block, and what the block says. -/
theorem readHttpRequest_eq_ok (h : readHttpRequest limit s = .ok (some request, t)) :
    ∃ block u, (readuntil streamLimit (crlf ++ crlf) : Mitm Bytes) s = .ok (block, u) ∧
      readAfterBlock limit block u = .ok (request, t) := by
  obtain ⟨block?, u, hblock, h⟩ := bind_eq_ok.mp h
  cases block? with
  | none => simp [pure, StateT.pure, Except.pure] at h
  | some block =>
      refine ⟨block, u, readHeaderBlock_eq_ok hblock, ?_⟩
      change (some <$> readAfterBlock limit block) u = _ at h
      rw [map_eq_pure_bind] at h
      obtain ⟨request', v, hrequest, h⟩ := bind_eq_ok.mp h
      obtain ⟨hrequest', rfl⟩ := Prod.mk.inj (Except.ok.inj h)
      obtain rfl := Option.some.inj hrequest'
      exact hrequest

end CodexResetProxy
