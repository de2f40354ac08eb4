import CodexResetProxy.Library.Arrivals
import CodexResetProxy.Mitm.Wire

/-!
`_read_http_request` on a connection whose bytes arrive in packets.

* `Arriving.readHttpRequest`: the reader, over the loops of `StreamReader`.
* `refines_readHttpRequest`: **it does what `readHttpRequest` does on the stream.**
* `ParsesFaithfully`, `parsesFaithfully_iff`: a request within the limits of
  `socks_mitm.py` is read as it was sent just when it is within those of
  `StreamReader` and `int`, which are smaller.
-/

namespace CodexResetProxy

open PyStr ByteStr StreamReader

/-- A computation of `socks_mitm.py` on the packets of a client. -/
abbrev MitmArriving := StreamReader.Arriving RequestBodyTooLarge

/-! ### Reading from packets -/

namespace Arriving

/-- The read of the header block. -/
def readHeaderBlock : MitmArriving (Option Bytes) := fun a =>
  match (Arrivals.readuntil streamLimit (crlf ++ crlf) : MitmArriving Bytes) a with
  | .ok (block, b) => .ok (some block, b)
  | .error (.incomplete _) => .ok (none, { a.catchUp with buffer := [], packets := [] })
  | .error why => .error why

/-- The inner loop of `_read_chunked_body`. -/
def skipTrailers : ℕ → MitmArriving Unit
  | 0 => fun _ => .error .waiting
  | fuel + 1 => do
      let trailer ← Arrivals.readline streamLimit
      if trailer ∈ [[0x0d, 0x0a], [0x0a], []] then return () else skipTrailers fuel

/-- The loop of `_read_chunked_body`. -/
def readChunks (maxBodyBytes : ℕ) : ℕ → Bytes → MitmArriving Bytes
  | 0, _ => fun _ => .error .waiting
  | fuel + 1, body => do
      let line ← Arrivals.readline streamLimit
      match chunkSize line with
      | none => fun _ => .error .value
      | some size =>
          if size = 0 then
            skipTrailers (fuel + 1)
            return body
          else
            let chunk ← Arrivals.readexactly size
            if maxBodyBytes < (body ++ chunk).length then
              fun _ => .error (.raised (bodyTooLarge maxBodyBytes))
            else
              let _ ← Arrivals.readexactly 2
              readChunks maxBodyBytes fuel (body ++ chunk)

/-- `_read_chunked_body`. -/
def readChunkedBody (maxBodyBytes : ℕ) : MitmArriving Bytes := fun a =>
  readChunks maxBodyBytes (a.stream.bytes.length + 1) [] a

/-- The body that the headers announce. -/
def readBody (maxBodyBytes : ℕ) (f : HeaderFields) : MitmArriving Bytes :=
  if f.chunked then readChunkedBody maxBodyBytes
  else if maxBodyBytes < f.contentLength then
    fun _ => .error (.raised (bodyTooLarge maxBodyBytes))
  else if f.contentLength = 0 then return []
  else Arrivals.readexactly f.contentLength

/-- The rest of a request whose header block has been read. -/
def readAfterBlock (maxBodyBytes : ℕ) (block : Bytes) : MitmArriving HttpRequest :=
  if maxHttpHeaderBytes < block.length then fun _ => .error (.raised headersTooLarge)
  else
    match requestLineParts ((headerLines block).headD []) with
    | none => fun _ => .error .value
    | some (method, target, version) =>
        match readHeaderLines (headerLines block).tail with
        | none => fun _ => .error .value
        | some f => do
            let body ← readBody maxBodyBytes f
            return { method, target, version, headers := f.headers, body }

/-- `_read_http_request`. -/
def readHttpRequest (maxBodyBytes : ℕ) : MitmArriving (Option HttpRequest) := do
  match ← readHeaderBlock with
  | none => return none
  | some block => some <$> readAfterBlock maxBodyBytes block

end Arriving

/-! ### Refinement -/

lemma refines_readHeaderBlock : Refines Arriving.readHeaderBlock readHeaderBlock := by
  intro a
  have huntil := @refines_readuntil RequestBodyTooLarge (crlf ++ crlf) streamLimit (by decide) a
  rw [readHeaderBlock, Arriving.readHeaderBlock, ← huntil]
  cases (Arrivals.readuntil streamLimit (crlf ++ crlf) : MitmArriving Bytes) a with
  | ok p => rfl
  | error why => cases why <;> rfl

lemma refines_skipTrailers (fuel : ℕ) :
    Refines (Arriving.skipTrailers fuel) (skipTrailers fuel) := by
  induction fuel with
  | zero => exact fun _ => rfl
  | succ fuel ih =>
      exact (refines_readline streamLimit).bind fun trailer => .ite (.pure ()) ih

lemma refines_readChunks (limit fuel : ℕ) (body : Bytes) :
    Refines (Arriving.readChunks limit fuel body) (readChunks limit fuel body) := by
  induction fuel generalizing body with
  | zero => exact fun _ => rfl
  | succ fuel ih =>
      refine (refines_readline streamLimit).bind fun line => ?_
      cases chunkSize line with
      | none => exact fun _ => rfl
      | some size =>
          refine .ite ((refines_skipTrailers (fuel + 1)).bind fun _ => .pure body) ?_
          refine (refines_readexactly size).bind fun chunk => ?_
          refine .ite (fun _ => rfl) ?_
          exact (refines_readexactly 2).bind fun _ => ih (body ++ chunk)

lemma refines_readBody (limit : ℕ) (f : HeaderFields) :
    Refines (Arriving.readBody limit f) (readBody limit f) := by
  refine .ite (fun a => ?_) (.ite (fun _ => rfl) (.ite (.pure []) (refines_readexactly _)))
  exact refines_readChunks limit (a.stream.bytes.length + 1) [] a

lemma refines_readAfterBlock (limit : ℕ) (block : Bytes) :
    Refines (Arriving.readAfterBlock limit block) (readAfterBlock limit block) := by
  refine .ite (fun _ => rfl) ?_
  cases requestLineParts ((headerLines block).headD []) with
  | none => exact fun _ => rfl
  | some parts =>
      cases readHeaderLines (headerLines block).tail with
      | none => exact fun _ => rfl
      | some f => exact (refines_readBody limit f).bind fun body => .pure _

/-- **Requests do not depend on how their bytes arrive.** -/
theorem refines_readHttpRequest (limit : ℕ) :
    Refines (Arriving.readHttpRequest limit) (readHttpRequest limit) := by
  refine refines_readHeaderBlock.bind fun block? => ?_
  cases block? with
  | none => exact .pure none
  | some block =>
      dsimp only
      rw [map_eq_pure_bind, map_eq_pure_bind]
      exact (refines_readAfterBlock limit block).bind fun request => .pure _

/-! ### Complete requests -/

/-- The request that was sent is read, with nothing that follows it. -/
def ParsedFaithfully (limit : ℕ) (w : WireRequest) (rest : Bytes) (a : Arrivals) : Prop :=
  ∃ b, Arriving.readHttpRequest limit a = .ok (some w.request, b) ∧ b.stream = ⟨rest, a.eof⟩

/-- A request that `socks_mitm.py` allows: the header block with its end, the body, and
the lines of a chunked body are within their limits. -/
structure WithinLimits (limit : ℕ) (w : WireRequest) : Prop where
  block : (w.head ++ (crlf ++ crlf)).length ≤ maxHttpHeaderBytes
  body : w.body.body.length ≤ limit
  lines : w.body.Fits

/-- A request that `readuntil` and `int` allow as well: the header block and the digits
of a declared length are within theirs. -/
structure WithinReader (w : WireRequest) : Prop where
  head : w.head.length ≤ streamLimit
  digits : ∀ h ∈ w.headers, IsContentLength h → h.2.length ≤ maxDigits

variable {limit : ℕ} {w : WireRequest} {rest : Bytes} {a : Arrivals}

/-- A request that is read is within the limits of the reader. -/
lemma ParsedFaithfully.withinReader (ha : a.stream = ⟨w.bytes ++ rest, a.eof⟩)
    (h : ParsedFaithfully limit w rest a) : WithinReader w := by
  obtain ⟨b, hread, -⟩ := h
  obtain ⟨-, -, hunfit⟩ := readsWire limit w rest a.eof
  by_contra hnot
  obtain ⟨why, hwhy⟩ := hunfit fun hfits => hnot ⟨hfits.head, hfits.digits⟩
  have hrefines := refines_readHttpRequest limit a
  rw [ha, hread, hwhy] at hrefines
  exact absurd hrefines (by simp [Except.map])

/-- **When a complete request is read**, whatever packets it comes in. -/
theorem parsedFaithfully_iff (hwithin : WithinLimits limit w)
    (ha : a.stream.bytes = w.bytes ++ rest) :
    ParsedFaithfully limit w rest a ↔ WithinReader w := by
  have hstream : a.stream = ⟨w.bytes ++ rest, a.eof⟩ := by
    rw [← ha]
    rfl
  refine ⟨fun hparsed => hparsed.withinReader hstream, fun hreader => ?_⟩
  have hfits : w.Fits := ⟨hreader.head, hreader.digits, hwithin.lines⟩
  have hread := (readsWire limit w rest a.eof).small hfits hwithin.body
  rw [← hstream] at hread
  exact (refines_readHttpRequest limit).eq_ok hread

/-- A header line of some length. -/
def paddedField (n : ℕ) : WireField where
  name := ascii "a"
  blank := []
  value := List.replicate n 0x61
  name_plain := by decide +kernel
  isBlank := by decide +kernel
  value_plain := fun _ hc => List.eq_of_mem_replicate hc ▸ by decide
  value_start := fun _ hc => List.eq_of_mem_replicate (List.mem_of_mem_head? hc) ▸ by decide

/-- A header line that declares a body of no bytes. -/
def emptyField : WireField where
  name := ascii "content-length"
  blank := []
  value := ascii "0"
  name_plain := by decide +kernel
  isBlank := by decide +kernel
  value_plain := by decide +kernel
  value_start := by decide +kernel

lemma declared_padded (n : ℕ) :
    (WireBody.length []).Declared ([paddedField n, emptyField].map WireField.header) := by
  refine ⟨⟨(ascii "content-length", ascii "0"), by simp [WireField.header, emptyField],
    by decide⟩, ?_⟩
  intro h hh
  rcases List.mem_pair.mp hh with rfl | rfl
  · have hname : lowerBytes (ascii "a") ≠ ascii "transfer-encoding" ∧
        lowerBytes (ascii "a") ≠ ascii "content-length" := by decide
    exact ⟨fun h => hname.1 h.1, fun h => absurd h hname.2⟩
  · exact ⟨by decide +kernel, fun _ => by decide +kernel⟩

/-- A request without a body, and with a header block of some length. -/
def paddedRequest (n : ℕ) : WireRequest where
  method := ascii "GET"
  target := ascii "/"
  version := ascii "HTTP/1.1"
  fields := [paddedField n, emptyField]
  body := .length []
  method_word := by decide +kernel
  target_word := by decide +kernel
  version_word := isWord_http11
  declared := declared_padded n

lemma length_head_paddedRequest (n : ℕ) : (paddedRequest n).head.length = n + 36 := by
  have hrequestLine : (ascii "GET").length = 3 ∧ (ascii "/").length = 1 ∧
      (ascii "HTTP/1.1").length = 8 := by decide
  have hfields : (ascii "a").length = 1 ∧ (ascii "content-length").length = 14 ∧
      (ascii "0").length = 1 := by decide
  simp [WireRequest.head, WireRequest.lines, WireRequest.requestLine, WireField.line,
    paddedRequest, paddedField, emptyField, List.intercalate_cons_cons,
    List.intercalate_singleton, crlf,
    hrequestLine, hfields]
  omega

/-- The request fits the limits of `socks_mitm.py`. -/
lemma withinLimits_paddedRequest {n : ℕ} (hn : n + 40 ≤ maxHttpHeaderBytes) :
    WithinLimits limit (paddedRequest n) where
  block := by
    rw [List.length_append, length_head_paddedRequest]
    exact hn
  body := Nat.zero_le limit
  lines := trivial

/-- It does not fit those of `readuntil`, which come first. -/
theorem not_parsedFaithfully_padded :
    WithinLimits 0 (paddedRequest 70000) ∧
      ¬ParsedFaithfully 0 (paddedRequest 70000) [] ⟨(paddedRequest 70000).bytes, [], true, []⟩ := by
  have hwithin := @withinLimits_paddedRequest 0 70000 (by decide)
  refine ⟨hwithin, fun hparsed => ?_⟩
  have hhead := (hparsed.withinReader (by simp [Arrivals.stream])).head
  rw [length_head_paddedRequest] at hhead
  exact absurd hhead (by decide)

/-- A request that fits both, in two packets. -/
theorem parsedFaithfully_padded :
    ParsedFaithfully 0 (paddedRequest 7) [0x47]
      ⟨[], [(paddedRequest 7).bytes.take 50, (paddedRequest 7).bytes.drop 50 ++ [0x47]], true,
        []⟩ := by
  refine (parsedFaithfully_iff (withinLimits_paddedRequest (by decide)) ?_).mpr ⟨?_, ?_⟩
  · rw [Arrivals.stream, List.nil_append, List.flatten_cons, List.flatten_singleton,
      ← List.append_assoc, List.take_append_drop]
  · rw [length_head_paddedRequest]
    decide
  · decide +kernel

end CodexResetProxy
