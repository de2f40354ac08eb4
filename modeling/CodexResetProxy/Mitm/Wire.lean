import CodexResetProxy.Mitm.Framing
import CodexResetProxy.Mitm.WireChunks

/-!
Complete HTTP requests as clients send them, and how they are read.

* `WireRequest`: a request by its parts, none of which can be mistaken for another;
  `WireRequest.bytes`: what is sent.
* `WireRequest.Fits`: no line is too long for the reader.
* `ReadsWire`, `readsWire`: **the request that was sent is read** if it fits and its
  body is within the limit, and only then.
-/

namespace CodexResetProxy

open PyStr ByteStr StreamReader

/-! ### The parts of a request -/

/-- Part of a request line: it has no blank and no line end. -/
def IsWord (s : Bytes) : Prop := ∀ c ∈ s, c ≠ 0x20 ∧ c ≠ 0x0d ∧ c ≠ 0x0a

instance : DecidablePred IsWord := List.decidableBAll fun c => c ≠ 0x20 ∧ c ≠ 0x0d ∧ c ≠ 0x0a

lemma isWord_http11 : IsWord (ascii "HTTP/1.1") := by decide +kernel

/-- A header line, with the blanks between colon and value. -/
structure WireField where
  name : Bytes
  blank : Bytes
  value : Bytes
  name_plain : ∀ c ∈ name, c ≠ 0x3a ∧ c ≠ 0x0d ∧ c ≠ 0x0a
  isBlank : IsBlank blank
  value_plain : ∀ c ∈ value, c ≠ 0x0d ∧ c ≠ 0x0a
  value_start : ∀ c ∈ value.head?, ¬isSpace c

/-- The line of a header. -/
def WireField.line (f : WireField) : Bytes := f.name ++ 0x3a :: (f.blank ++ f.value)

/-- The header of a line. -/
def WireField.header (f : WireField) : Bytes × Bytes := (f.name, f.value)

/-- How the body is framed: there is none, its length is declared, or it is
chunked. -/
inductive WireBody where
  | none
  | length (body : Bytes)
  | chunked (c : WireChunks)

/-- The body. -/
def WireBody.body : WireBody → Bytes
  | .none => []
  | .length body => body
  | .chunked c => c.chunks.flatMap WireChunk.data

/-- The body as it is sent. -/
def WireBody.bytes : WireBody → Bytes
  | .none => []
  | .length body => body
  | .chunked c => c.chunks.flatMap WireChunk.bytes ++ c.tail

/-- The headers declare the framing. -/
def WireBody.Declared (headers : RawHeaders) : WireBody → Prop
  | .none => ∀ h ∈ headers, ¬IsContentLength h ∧ ¬IsChunked h
  | .length body => (∃ h ∈ headers, IsContentLength h) ∧
      ∀ h ∈ headers, ¬IsChunked h ∧ (IsContentLength h → PlainNumber h.2 body.length)
  | .chunked _ => (∃ h ∈ headers, IsChunked h) ∧ ∀ h ∈ headers, ¬IsContentLength h

/-- A complete request. -/
structure WireRequest where
  method : Bytes
  target : Bytes
  version : Bytes
  fields : List WireField
  body : WireBody
  method_word : IsWord method
  target_word : IsWord target
  version_word : IsWord version
  declared : body.Declared (fields.map WireField.header)

namespace WireRequest

variable (w : WireRequest)

/-- The headers. -/
def headers : RawHeaders := w.fields.map WireField.header

/-- The request line. -/
def requestLine : Bytes := w.method ++ 0x20 :: (w.target ++ 0x20 :: w.version)

/-- The lines of the header block. -/
def lines : List Bytes := w.requestLine :: w.fields.map WireField.line

/-- The header block without the line ends that end it. -/
def head : Bytes := crlf.intercalate w.lines

/-- The request as it is sent. -/
def bytes : Bytes := w.head ++ (crlf ++ crlf) ++ w.body.bytes

/-- The request as it is to be read. -/
def request : HttpRequest where
  method := decodeLatin1 w.method
  target := decodeLatin1 w.target
  version := decodeLatin1 w.version
  headers := w.headers
  body := w.body.body

end WireRequest

/-! ### What fits -/

/-- No line of a body is too long. -/
def WireBody.Fits : WireBody → Prop
  | .chunked c => c.Fits
  | _ => True

/-- A request fits the reader: the header block is within its limit, `int` takes as
many digits as a declared length has, and no line of the body is too long. -/
structure WireRequest.Fits (w : WireRequest) : Prop where
  head : w.head.length ≤ streamLimit
  digits : ∀ h ∈ w.headers, IsContentLength h → h.2.length ≤ maxDigits
  body : w.body.Fits

/-! ### The header block -/

variable {a line : Bytes} {lines : List Bytes}

/-- A line is split off. -/
lemma splitCrlf_append (ha : 0x0d ∉ a) (s : Bytes) :
    splitCrlf (a ++ crlf ++ s) = a :: splitCrlf s := by
  induction a with
  | nil => simp [crlf, splitCrlf]
  | cons c a ih =>
      rw [List.mem_cons, not_or] at ha
      obtain ⟨d, t, hcons⟩ : ∃ d t, a ++ crlf ++ s = d :: t := by
        cases a with
        | nil => exact ⟨_, _, rfl⟩
        | cons d a => exact ⟨_, _, rfl⟩
      rw [List.cons_append, List.cons_append, hcons, splitCrlf, ← hcons, ih ha.2,
        if_neg fun h => ha.1 h.1.symm]
      rfl

lemma splitCrlf_of_notMem (ha : 0x0d ∉ a) : splitCrlf a = [a] := by
  induction a with
  | nil => rfl
  | cons c a ih =>
      rw [List.mem_cons, not_or] at ha
      cases a with
      | nil => rfl
      | cons d a =>
          rw [splitCrlf, ih ha.2, if_neg fun h => ha.1 h.1.symm]
          rfl

/-- **The lines of a header block** are split again. -/
theorem splitCrlf_intercalate (hlines : ∀ l ∈ line :: lines, 0x0d ∉ l) :
    splitCrlf (crlf.intercalate (line :: lines)) = line :: lines := by
  induction lines generalizing line with
  | nil =>
      rw [List.intercalate_singleton]
      exact splitCrlf_of_notMem (hlines line List.mem_cons_self)
  | cons next lines ih =>
      rw [List.forall_mem_cons] at hlines
      rw [List.intercalate_cons_cons, splitCrlf_append hlines.1, ih hlines.2]

/-- A header block starts with its first line. -/
lemma prefix_intercalate (line : Bytes) (lines : List Bytes) :
    line <+: crlf.intercalate (line :: lines) := by
  cases lines with
  | nil => rw [List.intercalate_singleton]
  | cons next lines =>
      rw [List.intercalate_cons_cons, List.append_assoc]
      exact List.prefix_append line _

/-- The end of a block is not in a line. -/
lemma find_line (ha : 0x0d ∉ a) (s : Bytes) :
    find (crlf ++ crlf) (a ++ s) = (find (crlf ++ crlf) s).map (a.length + ·) :=
  find_append ha s

/-- A line end does not end the block if a line follows. -/
lemma find_crlf {c : UInt8} (hc : c ≠ 0x0d) (s : Bytes) :
    find (crlf ++ crlf) (crlf ++ c :: s) = (find (crlf ++ crlf) (c :: s)).map (2 + ·) := by
  have hcr : ¬(crlf ++ crlf).isPrefixOf (crlf ++ c :: s) := by
    simp [crlf, List.isPrefixOf, hc.symm]
  have hlf : ¬(crlf ++ crlf).isPrefixOf (0x0a :: c :: s) := by simp [crlf, List.isPrefixOf]
  rw [show crlf ++ c :: s = 0x0d :: 0x0a :: c :: s from rfl] at hcr ⊢
  rw [find, if_neg hcr, find, if_neg hlf, Option.map_map]
  congr 1
  funext i
  simp only [Function.comp_apply]
  omega

/-- **The end of a header block** is where its last line ends. -/
theorem find_intercalate (hlines : ∀ l ∈ line :: lines, 0x0d ∉ l ∧ l ≠ []) (rest : Bytes) :
    find (crlf ++ crlf) (crlf.intercalate (line :: lines) ++ (crlf ++ crlf) ++ rest)
      = some (crlf.intercalate (line :: lines)).length := by
  induction lines generalizing line with
  | nil =>
      have hline := (hlines line List.mem_cons_self).1
      have hzero : find (crlf ++ crlf) (crlf ++ crlf ++ rest) = some 0 :=
        find_prefix (by simp [crlf]) rest
      rw [List.intercalate_singleton, List.append_assoc, find_line hline, hzero]
      rfl
  | cons next lines ih =>
      rw [List.forall_mem_cons] at hlines
      obtain ⟨hnext, hne⟩ := hlines.2 next List.mem_cons_self
      obtain ⟨c, next, rfl⟩ := List.exists_cons_of_ne_nil hne
      have hc : c ≠ 0x0d := fun h => hnext (h ▸ List.mem_cons_self)
      obtain ⟨t, ht⟩ := prefix_intercalate (c :: next) lines
      have hfind := ih hlines.2
      have hstart : crlf.intercalate ((c :: next) :: lines) ++ (crlf ++ crlf) ++ rest
          = c :: (next ++ t ++ (crlf ++ crlf) ++ rest) := by
        rw [← ht]
        simp
      have hskip := find_crlf hc (next ++ t ++ (crlf ++ crlf) ++ rest)
      rw [← hstart, hfind] at hskip
      rw [List.intercalate_cons_cons, List.append_assoc, List.append_assoc, List.append_assoc,
        find_line hlines.1.1, ← List.append_assoc _ _ rest, hskip]
      simp only [Option.map_some, List.length_append, Option.some.injEq]
      simp [crlf, Nat.add_assoc]

/-- A colon ends the name. -/
lemma cutColon_line (f : WireField) : cutColon f.line = (f.name, some (f.blank ++ f.value)) := by
  have hname : ∀ c ∈ f.name, decide (c ≠ 0x3a) = true := fun c hc =>
    decide_eq_true (f.name_plain c hc).1
  rw [cutColon, WireField.line, List.dropWhile_append_of_pos hname,
    List.takeWhile_append_of_pos hname]
  simp

/-- The blanks before a value are stripped. -/
lemma lstrip_value (f : WireField) : lstrip (f.blank ++ f.value) = f.value := by
  have hblank : ∀ c ∈ f.blank, isSpace c = true := by
    intro c hc
    rcases f.isBlank c hc with rfl | rfl <;> rfl
  rw [lstrip, List.dropWhile_append_of_pos hblank]
  cases hvalue : f.value with
  | nil => rfl
  | cons c s =>
      have hc := f.value_start c (by simp [hvalue])
      simp [hc]

lemma headerOf_line (f : WireField) : headerOf f.line = f.header := by
  rw [headerOf, cutColon_line, WireField.header]
  exact congrArg _ (lstrip_value f)

lemma line_ne_nil (f : WireField) : f.line ≠ [] := by simp [WireField.line]

lemma headersOf_line (fields : List WireField) :
    headersOf (fields.map WireField.line) = fields.map WireField.header := by
  have hne : ∀ l ∈ fields.map WireField.line, decide (l ≠ []) = true := by
    intro l hl
    obtain ⟨f, -, rfl⟩ := List.mem_map.mp hl
    exact decide_eq_true (line_ne_nil f)
  rw [headersOf, List.filter_eq_self.mpr hne, List.map_map]
  exact List.map_congr_left fun f _ => headerOf_line f

lemma isSome_addLine (g : HeaderFields) (f : WireField) :
    (g.addLine f.line).isSome ↔ (IsContentLength f.header → (pyInt 10 f.value).isSome) := by
  rw [HeaderFields.addLine, if_neg (line_ne_nil f), cutColon_line]
  simp only [lstrip_value]
  change Option.isSome (ite (IsContentLength f.header) _ _) = true ↔ _
  by_cases hlength : IsContentLength f.header
  · simp [hlength]
  · rw [if_neg hlength]
    split_ifs <;> simp [hlength]

/-- **The header lines are read** if every length is a number that `int` takes. -/
theorem isSome_readHeaderLines (fields : List WireField) :
    (readHeaderLines (fields.map WireField.line)).isSome ↔
      ∀ f ∈ fields, IsContentLength f.header → (pyInt 10 f.value).isSome := by
  have hloop : ∀ g : HeaderFields,
      ((fields.map WireField.line).foldlM HeaderFields.addLine g).isSome ↔
        ∀ f ∈ fields, IsContentLength f.header → (pyInt 10 f.value).isSome := by
    induction fields with
    | nil => exact fun g => iff_of_true rfl (by simp)
    | cons f fields ih =>
        intro g
        rw [List.map_cons, List.foldlM_cons, List.forall_mem_cons, ← isSome_addLine g]
        cases hline : g.addLine f.line with
        | none => simp
        | some g' => simpa using ih g'
  exact hloop {}

/-! ### Declared lengths -/

lemma pyInt_of_plainNumber {value : Bytes} {n : ℤ} (h : PlainNumber value n) :
    pyInt 10 value = if maxDigits < value.length then none else some n := by
  obtain ⟨hne, hdigits, rfl⟩ := h
  have hlt : ∀ c ∈ value, digitValue c < 10 := by
    intro c hc
    obtain ⟨hlow, hhigh⟩ := hdigits c hc
    rw [UInt8.le_iff_toNat_le] at hlow hhigh
    rw [digitValue, if_pos (hdigits c hc)]
    simp only [UInt8.reduceToNat] at hlow hhigh
    omega
  have hint := @pyInt_digits 10 (by decide) value [] hne hlt (by simp)
  rw [List.append_nil] at hint
  simpa using hint

variable {w : WireRequest} {headers : RawHeaders} {limit : ℕ} {eof : Bool} {rest : Bytes}

lemma ofHeaders_of_none (h : WireBody.none.Declared headers) :
    HeaderFields.ofHeaders headers = { headers } := by
  have hlength : headers.filter IsContentLength = [] := by
    simpa using fun a b hab => (h (a, b) hab).1
  have hchunked : headers.any (IsChunked ·) = false := by
    simpa using fun a b hab => (h (a, b) hab).2
  rw [HeaderFields.ofHeaders, hchunked, lastContentLength, hlength]
  rfl

/-- The last length is the declared one. -/
lemma ofHeaders_of_length {body : Bytes} (h : (WireBody.length body).Declared headers)
    (hfits : ∀ h ∈ headers, IsContentLength h → h.2.length ≤ maxDigits) :
    HeaderFields.ofHeaders headers = { headers, contentLength := body.length } := by
  obtain ⟨⟨first, hfirst, hname⟩, hall⟩ := h
  have hchunked : headers.any (IsChunked ·) = false := by
    simpa using fun a b hab => (hall (a, b) hab).1
  have hne : headers.filter IsContentLength ≠ [] :=
    List.ne_nil_of_mem (List.mem_filter.mpr ⟨hfirst, decide_eq_true hname⟩)
  have hlast : lastContentLength headers = body.length := by
    obtain ⟨hmem, hlength⟩ := List.mem_filter.mp (List.getLast_mem hne)
    replace hlength := of_decide_eq_true hlength
    rw [lastContentLength, List.getLast?_eq_some_getLast hne]
    dsimp only
    rw [pyInt_of_plainNumber ((hall _ hmem).2 hlength),
      if_neg (Nat.not_lt.mpr (hfits _ hmem hlength))]
    rfl
  rw [HeaderFields.ofHeaders, hchunked, hlast]

lemma chunked_ofHeaders {c : WireChunks} (h : (WireBody.chunked c).Declared headers) :
    (HeaderFields.ofHeaders headers).chunked = true := by
  obtain ⟨⟨first, hfirst, hchunked⟩, -⟩ := h
  exact List.any_eq_true.mpr ⟨first, hfirst, decide_eq_true hchunked⟩

/-! ### The request line -/

lemma notMem_decodeLatin1 {s : Bytes} (h : IsWord s) : 0x20 ∉ decodeLatin1 s := by
  intro hmem
  obtain ⟨c, hc, hspace⟩ := List.mem_map.mp hmem
  exact (h c hc).1 (UInt8.toNat_inj.mp hspace)

/-- **The request line is read.** -/
theorem requestLineParts_requestLine (w : WireRequest) :
    requestLineParts w.requestLine
      = some (decodeLatin1 w.method, decodeLatin1 w.target, decodeLatin1 w.version) := by
  have hline : decodeLatin1 w.requestLine = [0x20].intercalate
      [decodeLatin1 w.method, decodeLatin1 w.target, decodeLatin1 w.version] := by
    simp [WireRequest.requestLine, decodeLatin1, List.intercalate_cons_cons,
      List.intercalate_singleton]
  have hwords : ∀ l ∈ [decodeLatin1 w.method, decodeLatin1 w.target, decodeLatin1 w.version],
      0x20 ∉ l := by
    simp [notMem_decodeLatin1, w.method_word, w.target_word, w.version_word]
  rw [requestLineParts, hline, List.splitOn_intercalate _ hwords (by simp)]

/-- No line holds a line end, and none is empty. -/
lemma plain_of_mem_lines {l : Bytes} (hl : l ∈ w.lines) : 0x0d ∉ l ∧ l ≠ [] := by
  rcases List.mem_cons.mp hl with rfl | hl
  · refine ⟨fun hmem => ?_, by simp [WireRequest.requestLine]⟩
    have hword : ∀ {s : Bytes}, IsWord s → 0x0d ∉ s := fun hs hmem => (hs _ hmem).2.1 rfl
    simp [WireRequest.requestLine, hword w.method_word, hword w.target_word,
      hword w.version_word] at hmem
  · obtain ⟨f, -, rfl⟩ := List.mem_map.mp hl
    refine ⟨fun hmem => ?_, line_ne_nil f⟩
    have hname : 0x0d ∉ f.name := fun h => (f.name_plain _ h).2.1 rfl
    have hblank : 0x0d ∉ f.blank := fun h => by simpa using f.isBlank _ h
    have hvalue : 0x0d ∉ f.value := fun h => (f.value_plain _ h).1 rfl
    simp [WireField.line, hname, hblank, hvalue] at hmem

/-- The lines of the block are those that were sent. -/
lemma headerLines_head (w : WireRequest) : headerLines (w.head ++ (crlf ++ crlf)) = w.lines := by
  have hlength : (w.head ++ (crlf ++ crlf)).length - 4 = w.head.length := by simp [crlf]
  rw [headerLines, hlength, List.take_left, WireRequest.head, WireRequest.lines]
  exact splitCrlf_intercalate fun l hl => (plain_of_mem_lines (w := w) hl).1

/-! ### The request -/

/-- A body of a declared length is read, or is too large. -/
lemma readBody_length {f : HeaderFields} {body : Bytes} (hchunked : f.chunked = false)
    (hlength : f.contentLength = body.length) :
    readBody limit f ⟨body ++ rest, eof⟩
      = if limit < body.length then .error (.raised (bodyTooLarge limit))
        else .ok (body, ⟨rest, eof⟩) := by
  rw [readBody, hchunked, if_neg Bool.false_ne_true, hlength]
  by_cases hlarge : limit < body.length
  · rw [if_pos (Int.ofNat_lt.mpr hlarge), if_pos hlarge]
    rfl
  · rw [if_neg fun h => hlarge (Int.ofNat_lt.mp h), if_neg hlarge]
    by_cases hzero : body = []
    · subst hzero
      rfl
    · rw [if_neg (by simpa using hzero)]
      exact readexactly_append body rest eof

/-- The body is read after the header block. -/
lemma readBody_wire (w : WireRequest) (hdigits : ∀ h ∈ w.headers, IsContentLength h →
    h.2.length ≤ maxDigits) :
    (w.body.Fits → readBody limit (.ofHeaders w.headers) ⟨w.body.bytes ++ rest, eof⟩
        = if limit < w.body.body.length then .error (.raised (bodyTooLarge limit))
          else .ok (w.body.body, ⟨rest, eof⟩)) ∧
      (¬w.body.Fits → ∃ why,
        readBody limit (.ofHeaders w.headers) ⟨w.body.bytes ++ rest, eof⟩ = .error why) := by
  have hdeclared : w.body.Declared w.headers := w.declared
  cases hbody : w.body with
  | none =>
      rw [hbody] at hdeclared
      rw [ofHeaders_of_none hdeclared, readBody, if_neg Bool.false_ne_true, if_neg (by simp),
        if_pos rfl]
      exact ⟨fun _ => rfl, fun h => absurd trivial h⟩
  | length body =>
      rw [hbody] at hdeclared
      rw [ofHeaders_of_length hdeclared hdigits]
      exact ⟨fun _ => readBody_length rfl rfl, fun h => absurd trivial h⟩
  | chunked c =>
      rw [hbody] at hdeclared
      rw [readBody, if_pos (chunked_ofHeaders hdeclared), readChunkedBody, WireBody.bytes,
        List.append_assoc]
      exact @readChunks_wire limit _ [] rest eof c c.chunks (Nat.zero_le _) (Nat.lt_succ_self _)

/-- The header block is read, unless it is too long. -/
lemma readHeaderBlock_wire (w : WireRequest) :
    readHeaderBlock ⟨w.bytes ++ rest, eof⟩
      = if streamLimit < w.head.length then .error .limitOverrun
        else .ok (some (w.head ++ (crlf ++ crlf)), ⟨w.body.bytes ++ rest, eof⟩) := by
  have hstream : w.bytes ++ rest = w.head ++ (crlf ++ crlf) ++ (w.body.bytes ++ rest) := by
    simp [WireRequest.bytes]
  have hfind := find_intercalate (fun l hl => plain_of_mem_lines (w := w) hl)
    (w.body.bytes ++ rest)
  have huntil := @readuntil_of_find RequestBodyTooLarge streamLimit w.head
    (w.body.bytes ++ rest) (crlf ++ crlf) hfind eof
  rw [hstream, readHeaderBlock, huntil]
  by_cases hlong : streamLimit < w.head.length
  · rw [if_pos hlong, if_pos hlong]
  · rw [if_neg hlong, if_neg hlong]

/-- The header lines are read just when `int` takes every length. -/
lemma readHeaderLines_wire (w : WireRequest) :
    (readHeaderLines (w.fields.map WireField.line)).isSome ↔
      ∀ h ∈ w.headers, IsContentLength h → h.2.length ≤ maxDigits := by
  have hdeclared : w.body.Declared w.headers := w.declared
  have hint : ∀ h ∈ w.headers, IsContentLength h →
      ((pyInt 10 h.2).isSome ↔ h.2.length ≤ maxDigits) := by
    intro h hh hlength
    obtain ⟨n, hn⟩ : ∃ n, PlainNumber h.2 n := by
      cases hbody : w.body with
      | none =>
          rw [hbody] at hdeclared
          exact absurd hlength (hdeclared h hh).1
      | length body =>
          rw [hbody] at hdeclared
          exact ⟨_, (hdeclared.2 h hh).2 hlength⟩
      | chunked c =>
          rw [hbody] at hdeclared
          exact absurd hlength (hdeclared.2 h hh)
    rw [pyInt_of_plainNumber hn]
    split_ifs with hlong
    · simpa using hlong
    · simpa using Nat.not_lt.mp hlong
  rw [isSome_readHeaderLines, WireRequest.headers, List.forall_mem_map]
  exact forall₂_congr fun f hf => imp_congr_right fun hlength =>
    hint f.header (List.mem_map_of_mem hf) hlength

/-- What `_read_http_request` does with a complete request. -/
structure ReadsWire (limit : ℕ) (w : WireRequest) (rest : Bytes) (eof : Bool) : Prop where
  small : w.Fits → w.body.body.length ≤ limit →
    readHttpRequest limit ⟨w.bytes ++ rest, eof⟩ = .ok (some w.request, ⟨rest, eof⟩)
  large : w.Fits → limit < w.body.body.length →
    readHttpRequest limit ⟨w.bytes ++ rest, eof⟩ = .error (.raised (bodyTooLarge limit))
  unfit : ¬w.Fits → ∃ why, readHttpRequest limit ⟨w.bytes ++ rest, eof⟩ = .error why

/-- **Complete requests are read** just when they fit and their body is within the
limit. -/
theorem readsWire (limit : ℕ) (w : WireRequest) (rest : Bytes) (eof : Bool) :
    ReadsWire limit w rest eof := by
  have hblock := @readHeaderBlock_wire eof rest w
  -- a head that is too long for `readuntil`
  by_cases hhead : streamLimit < w.head.length
  · rw [if_pos hhead] at hblock
    have herror : readHttpRequest limit ⟨w.bytes ++ rest, eof⟩ = .error .limitOverrun :=
      bind_of_error hblock
    exact ⟨fun h => absurd h.head (by omega), fun h => absurd h.head (by omega),
      fun _ => ⟨_, herror⟩⟩
  rw [if_neg hhead] at hblock
  set block := w.head ++ (crlf ++ crlf) with hblockDef
  set s : Stream := ⟨w.body.bytes ++ rest, eof⟩ with hs
  have hread : readHttpRequest limit ⟨w.bytes ++ rest, eof⟩
      = (some <$> readAfterBlock limit block) s := bind_of_ok hblock
  -- so the second check of the length never finds anything
  have hlength : ¬maxHttpHeaderBytes < block.length := by
    have h128 : streamLimit + 4 ≤ maxHttpHeaderBytes := by decide
    rw [hblockDef, List.length_append]
    simp only [crlf, List.length_append, List.length_cons, List.length_nil]
    omega
  have hlines : headerLines block = w.lines := headerLines_head w
  rw [readAfterBlock, if_neg hlength, hlines, show w.lines.headD [] = w.requestLine from rfl,
    requestLineParts_requestLine, show w.lines.tail = w.fields.map WireField.line from rfl] at hread
  -- `int` refuses a length of too many digits
  by_cases hdigits : ∀ h ∈ w.headers, IsContentLength h → h.2.length ≤ maxDigits
  · obtain ⟨f, hf⟩ := Option.isSome_iff_exists.mp ((readHeaderLines_wire w).mpr hdigits)
    obtain rfl : f = .ofHeaders w.headers := by
      rw [readHeaderLines_eq_some hf, headersOf_line]
      rfl
    rw [hf] at hread
    simp only [map_bind, map_pure] at hread
    obtain ⟨hfits, hunfit⟩ := @readBody_wire limit eof rest w hdigits
    constructor
    case small =>
      intro h hsmall
      have hbody := hfits h.body
      rw [if_neg (Nat.not_lt.mpr hsmall)] at hbody
      rw [hread, bind_of_ok hbody]
      rfl
    case large =>
      intro h hlarge
      have hbody := hfits h.body
      rw [if_pos hlarge] at hbody
      rw [hread, bind_of_error hbody]
    case unfit =>
      intro h
      obtain ⟨why, hwhy⟩ := hunfit fun hbody => h ⟨Nat.not_lt.mp hhead, hdigits, hbody⟩
      exact ⟨why, by rw [hread, bind_of_error hwhy]⟩
  · have hnone : readHeaderLines (w.fields.map WireField.line) = none := by
      rw [← Option.not_isSome_iff_eq_none, readHeaderLines_wire]
      exact hdigits
    rw [hnone] at hread
    exact ⟨fun h => absurd h.digits hdigits, fun h => absurd h.digits hdigits,
      fun _ => ⟨.value, hread⟩⟩

end CodexResetProxy
