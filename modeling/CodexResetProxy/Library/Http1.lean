import CodexResetProxy.Library.ByteStr
import CodexResetProxy.Library.PyStr

/-!
The syntax of HTTP/1.1 messages, strictly.

* `IsToken`, `IsFieldValue`, `IsFieldLine`: names, values, and the lines they make.
* `IsChunkExt`, `IsSizeLine`, `ChunkedBody`: `chunked-body`, with the payload that
  it encodes; `linefeed_notMem_chunkExt` and the like: **the lines it consists of hold
  no line end**.
* `bodyFraming`, `IsResponse`: how the end of a response is found, which depends on the
  method of the request, and the bytes that are one response and nothing else;
  `IsResponse.of_absent`: **a response without a body ends with its head.**
-/

namespace Http1

open ByteStr

/-- CRLF. -/
def eol : Bytes := [0x0d, 0x0a]

/-! ### Characters -/

/-- A blank: a space or a tab. -/
def IsBlank (c : UInt8) : Prop := c = 0x20 ∨ c = 0x09

/-- `tchar`. -/
def IsTokenChar (c : UInt8) : Prop :=
  c ∈ [0x21, 0x23, 0x24, 0x25, 0x26, 0x27, 0x2a, 0x2b, 0x2d, 0x2e, 0x5e, 0x5f, 0x60, 0x7c, 0x7e] ∨
    (0x30 ≤ c ∧ c ≤ 0x39) ∨ (0x41 ≤ c ∧ c ≤ 0x5a) ∨ (0x61 ≤ c ∧ c ≤ 0x7a)

/-- `HTAB`, `SP`, `VCHAR` or `obs-text`. -/
def IsText (c : UInt8) : Prop := c = 0x09 ∨ (0x20 ≤ c ∧ c ≠ 0x7f)

instance : DecidablePred IsBlank := fun c => inferInstanceAs (Decidable (c = 0x20 ∨ c = 0x09))

instance : DecidablePred IsTokenChar := fun c => inferInstanceAs (Decidable (c ∈ [0x21, 0x23,
  0x24, 0x25, 0x26, 0x27, 0x2a, 0x2b, 0x2d, 0x2e, 0x5e, 0x5f, 0x60, 0x7c, 0x7e] ∨
    (0x30 ≤ c ∧ c ≤ 0x39) ∨ (0x41 ≤ c ∧ c ≤ 0x5a) ∨ (0x61 ≤ c ∧ c ≤ 0x7a)))

instance : DecidablePred IsText := fun c =>
  inferInstanceAs (Decidable (c = 0x09 ∨ (0x20 ≤ c ∧ c ≠ 0x7f)))

/-- `OWS` and `BWS`. -/
def IsBlanks (s : Bytes) : Prop := ∀ c ∈ s, IsBlank c

/-! ### Names and values -/

/-- `token`. -/
def IsToken (s : Bytes) : Prop := s ≠ [] ∧ ∀ c ∈ s, IsTokenChar c

/-- `field-value`. -/
structure IsFieldValue (s : Bytes) : Prop where
  text : ∀ c ∈ s, IsText c
  first : ∀ c ∈ s.head?, ¬IsBlank c
  last : ∀ c ∈ s.getLast?, ¬IsBlank c

/-- `field-line`, with its name and value. -/
structure IsFieldLine (line name value : Bytes) : Prop where
  name_token : IsToken name
  isValue : IsFieldValue value
  eq : ∃ b b', IsBlanks b ∧ IsBlanks b' ∧ line = name ++ 0x3a :: (b ++ value ++ b')

/-- What follows the first quote of a `quoted-string`. -/
inductive IsQuoted : Bytes → Prop where
  | close : IsQuoted [0x22]
  | text {c s} : IsText c → c ≠ 0x22 → c ≠ 0x5c → IsQuoted s → IsQuoted (c :: s)
  | pair {c s} : IsText c → IsQuoted s → IsQuoted (0x5c :: c :: s)

/-! ### Chunked bodies -/

/-- `chunk-ext`. -/
inductive IsChunkExt : Bytes → Prop where
  | nil : IsChunkExt []
  | name {b b' name ext} : IsBlanks b → IsBlanks b' → IsToken name → IsChunkExt ext →
      IsChunkExt (b ++ 0x3b :: (b' ++ name) ++ ext)
  | token {b b' name c c' value ext} : IsBlanks b → IsBlanks b' → IsToken name → IsBlanks c →
      IsBlanks c' → IsToken value → IsChunkExt ext →
      IsChunkExt (b ++ 0x3b :: (b' ++ name) ++ (c ++ 0x3d :: (c' ++ value)) ++ ext)
  | quoted {b b' name c c' value ext} : IsBlanks b → IsBlanks b' → IsToken name → IsBlanks c →
      IsBlanks c' → IsQuoted value → IsChunkExt ext →
      IsChunkExt (b ++ 0x3b :: (b' ++ name) ++ (c ++ 0x3d :: (c' ++ 0x22 :: value)) ++ ext)

/-- `chunk-size [ chunk-ext ]`, with the size. -/
def IsSizeLine (line : Bytes) (size : ℕ) : Prop :=
  ∃ digits ext, digits ≠ [] ∧ (∀ c ∈ digits, digitValue c < 16) ∧ IsChunkExt ext ∧
    ofDigits 16 (digits.map digitValue) = size ∧ line = digits ++ ext

/-- `trailer-section CRLF`. -/
inductive TrailerSection : Bytes → Prop where
  | nil : TrailerSection eol
  | cons {line name value s} : IsFieldLine line name value → TrailerSection s →
      TrailerSection (line ++ eol ++ s)

/-- `chunked-body`, with the payload.  A size of zero is written in zeros only. -/
inductive ChunkedBody : Bytes → Bytes → Prop where
  | last {line s} : IsSizeLine line 0 → TrailerSection s → ChunkedBody (line ++ eol ++ s) []
  | chunk {line data s payload} : IsSizeLine line data.length → data ≠ [] → ChunkedBody s payload →
      ChunkedBody (line ++ eol ++ data ++ eol ++ s) (data ++ payload)

/-! ### Responses -/

/-- A text in ASCII. -/
def text (s : String) : Bytes := (py s).map UInt8.ofNat

/-- The lower case of ASCII letters. -/
def lower (s : Bytes) : Bytes := s.map fun c => if 0x41 ≤ c ∧ c ≤ 0x5a then c + 0x20 else c

/-- A list without the blanks around it. -/
def trimBlanks (s : Bytes) : Bytes :=
  ((s.dropWhile (IsBlank ·)).reverse.dropWhile (IsBlank ·)).reverse

/-- A response. -/
structure Response where
  statusCode : ℕ
  headers : List (Bytes × Bytes)
  body : Bytes

/-- The values of a field, in order. -/
def fieldValues (name : String) (headers : List (Bytes × Bytes)) : List Bytes :=
  (headers.filter fun h => lower h.1 = text name).map Prod.snd

/-- How the end of a body is found, if it can be. -/
inductive BodyFraming where
  | absent
  | chunked
  | length (n : ℕ)
  | untilClose
  | invalid

/-- The framing of a response to a method: there is no body in some, a transfer coding
comes before a length, and there may be neither. -/
def bodyFraming (method : Bytes) (statusCode : ℕ) (headers : List (Bytes × Bytes)) : BodyFraming :=
  if method = text "HEAD" ∨ statusCode < 200 ∨ statusCode = 204 ∨ statusCode = 304 then .absent
  else if method = text "CONNECT" ∧ statusCode < 300 then .absent
  else
    match (fieldValues "transfer-encoding" headers).getLast? with
    | some value =>
        if lower (trimBlanks ((value.splitOn 0x2c).getLastD [])) = text "chunked" then .chunked
        else .untilClose
    | none =>
        match fieldValues "content-length" headers with
        | [] => .untilClose
        | value :: values =>
            if value ≠ [] ∧ value.all (digitValue · < 10) ∧ values.all (· = value) then
              .length (ofDigits 10 (value.map digitValue))
            else .invalid

/-- The bytes of a body, with what it consists of. -/
def IsBody : BodyFraming → Bytes → Bytes → Prop
  | .absent, s, body => s = [] ∧ body = []
  | .chunked, s, body => ChunkedBody s body
  | .length n, s, body => s = body ∧ body.length = n
  | .untilClose, s, body => s = body
  | .invalid, _, _ => False

/-- `status-line`. -/
def IsStatusLine (line : Bytes) (statusCode : ℕ) : Prop :=
  ∃ digits reason, digits.length = 3 ∧ (∀ c ∈ digits, digitValue c < 10) ∧
    ofDigits 10 (digits.map digitValue) = statusCode ∧ (∀ c ∈ reason, IsText c) ∧
    line = text "HTTP/1.1 " ++ digits ++ 0x20 :: reason

/-- Lines, with their ends. -/
def lineBytes (lines : List Bytes) : Bytes := lines.flatMap (· ++ eol)

/-- The bytes of one response to a method, with nothing before or after it.  There is no
transfer coding where there cannot be a body. -/
structure IsResponse (method s : Bytes) (r : Response) : Prop where
  bytes : ∃ start lines content, IsStatusLine start r.statusCode ∧
    List.Forall₂ (fun line h => IsFieldLine line h.1 h.2) lines r.headers ∧
    IsBody (bodyFraming method r.statusCode r.headers) content r.body ∧
    s = lineBytes (start :: lines) ++ eol ++ content
  coding : r.statusCode < 200 ∨ r.statusCode = 204 →
    fieldValues "transfer-encoding" r.headers = []

/-! ### Line ends -/

lemma linefeed_notMem_token {s : Bytes} (h : IsToken s) : 0x0a ∉ s := fun hmem =>
  absurd (h.2 _ hmem) (by decide)

lemma linefeed_notMem_blanks {s : Bytes} (h : IsBlanks s) : 0x0a ∉ s := fun hmem =>
  absurd (h _ hmem) (by decide)

lemma linefeed_notMem_quoted {s : Bytes} (h : IsQuoted s) : 0x0a ∉ s := by
  have htext : ∀ {c}, IsText c → 0x0a ≠ c := fun hc heq => absurd (heq ▸ hc) (by decide)
  induction h with
  | close => decide
  | text hc _ _ _ ih => simp [htext hc, ih]
  | pair hc _ ih => simp [htext hc, ih]

/-- No line end is in an extension. -/
lemma linefeed_notMem_chunkExt {s : Bytes} (h : IsChunkExt s) : 0x0a ∉ s := by
  induction h with
  | nil => exact List.not_mem_nil
  | name hb hb' hname _ ih =>
      simp [linefeed_notMem_blanks hb, linefeed_notMem_blanks hb', linefeed_notMem_token hname, ih]
  | token hb hb' hname hc hc' hvalue _ ih =>
      simp [linefeed_notMem_blanks hb, linefeed_notMem_blanks hb', linefeed_notMem_token hname,
        linefeed_notMem_blanks hc, linefeed_notMem_blanks hc', linefeed_notMem_token hvalue, ih]
  | quoted hb hb' hname hc hc' hvalue _ ih =>
      simp [linefeed_notMem_blanks hb, linefeed_notMem_blanks hb', linefeed_notMem_token hname,
        linefeed_notMem_blanks hc, linefeed_notMem_blanks hc', linefeed_notMem_quoted hvalue, ih]

/-- An extension starts with a semicolon, after blanks. -/
lemma chunkExt_start {s : Bytes} (h : IsChunkExt s) :
    s = [] ∨ ∃ b t, IsBlanks b ∧ s = b ++ 0x3b :: t := by
  cases h with
  | nil => exact .inl rfl
  | @name b b' name ext hb => exact .inr ⟨b, b' ++ name ++ ext, hb, by simp⟩
  | @token b b' name c c' value ext hb =>
      exact .inr ⟨b, b' ++ name ++ (c ++ 0x3d :: (c' ++ value)) ++ ext, hb, by simp⟩
  | @quoted b b' name c c' value ext hb =>
      exact .inr ⟨b, b' ++ name ++ (c ++ 0x3d :: (c' ++ 0x22 :: value)) ++ ext, hb, by simp⟩

/-- No line end is in a size line. -/
lemma linefeed_notMem_sizeLine {line : Bytes} {size : ℕ} (h : IsSizeLine line size) :
    0x0a ∉ line := by
  obtain ⟨digits, ext, -, hhex, hext, -, rfl⟩ := h
  have hdigits : 0x0a ∉ digits := fun hmem =>
    (of_digitValue_lt le_rfl (hhex _ hmem)).2.2.2.2.2.2.2 rfl
  simp [hdigits, linefeed_notMem_chunkExt hext]

/-- No line end is in a field line, and none is empty. -/
lemma linefeed_notMem_fieldLine {line name value : Bytes} (h : IsFieldLine line name value) :
    0x0a ∉ line ∧ 0x3a ∈ line := by
  obtain ⟨b, b', hb, hb', rfl⟩ := h.eq
  have hvalue : 0x0a ∉ value := fun hmem => absurd (h.isValue.text _ hmem) (by decide)
  refine ⟨?_, by simp⟩
  simp [linefeed_notMem_token h.name_token, linefeed_notMem_blanks hb, linefeed_notMem_blanks hb',
    hvalue]

/-- No line end is in a status line, and none is empty. -/
lemma linefeed_notMem_statusLine {line : Bytes} {statusCode : ℕ}
    (h : IsStatusLine line statusCode) : 0x0a ∉ line ∧ line ≠ [] := by
  obtain ⟨digits, reason, -, hdigits, -, hreason, rfl⟩ := h
  have htext : 0x0a ∉ reason := fun hmem => absurd (hreason _ hmem) (by decide)
  have hnum : 0x0a ∉ digits := fun hmem => absurd (hdigits _ hmem) (by decide)
  have hversion : 0x0a ∉ text "HTTP/1.1 " := by decide +kernel
  exact ⟨by simp [htext, hnum, hversion], by simp⟩

/-! ### Where a head ends -/

/-- A text is cut at its first line end in one way. -/
lemma line_inj {a b s t : Bytes} (ha : 0x0a ∉ a) (hb : 0x0a ∉ b)
    (h : a ++ eol ++ s = b ++ eol ++ t) : a = b ∧ s = t := by
  have hsplit : ∀ a s : Bytes, a ++ eol ++ s = a ++ [0x0d] ++ 0x0a :: s := by simp [eol]
  have hbefore : ∀ {a s : Bytes}, 0x0a ∉ a →
      (a ++ 0x0a :: s).takeWhile (· ≠ 0x0a) = a := by
    intro a s ha
    have hne : ∀ c ∈ a, decide (c ≠ 0x0a) = true := fun c hc =>
      decide_eq_true fun heq => ha (heq ▸ hc)
    rw [List.takeWhile_append_of_pos hne]
    simp
  have hcr : ∀ {a : Bytes}, 0x0a ∉ a → 0x0a ∉ a ++ [0x0d] := fun ha => by simpa using ha
  rw [hsplit, hsplit] at h
  have hline : a ++ [0x0d] = b ++ [0x0d] := by
    rw [← hbefore (hcr ha), h, hbefore (hcr hb)]
  obtain rfl := List.append_cancel_right hline
  exact ⟨rfl, (List.cons.inj (List.append_cancel_left h)).2⟩

/-- **An empty line ends a head**: two heads that start the same text are the same. -/
theorem lineBytes_inj {lines lines' : List Bytes} {s s' : Bytes}
    (hlines : ∀ l ∈ lines, 0x0a ∉ l ∧ l ≠ []) (hlines' : ∀ l ∈ lines', 0x0a ∉ l ∧ l ≠ [])
    (h : lineBytes lines ++ eol ++ s = lineBytes lines' ++ eol ++ s') :
    lines = lines' ∧ s = s' := by
  have hcons : ∀ l (lines : List Bytes) s, lineBytes (l :: lines) ++ eol ++ s
      = l ++ eol ++ (lineBytes lines ++ eol ++ s) := by simp [lineBytes]
  have hnil : ∀ s, lineBytes [] ++ eol ++ s = [] ++ eol ++ s := fun s => rfl
  induction lines generalizing lines' with
  | nil =>
      cases lines' with
      | nil => exact ⟨rfl, List.append_cancel_left h⟩
      | cons l lines' =>
          obtain ⟨hl, hne⟩ := hlines' l List.mem_cons_self
          rw [hnil, hcons] at h
          exact absurd (line_inj List.not_mem_nil hl h).1.symm hne
  | cons l lines ih =>
      rw [List.forall_mem_cons] at hlines
      cases lines' with
      | nil =>
          rw [hnil, hcons] at h
          exact absurd (line_inj hlines.1.1 List.not_mem_nil h).1 hlines.1.2
      | cons l' lines' =>
          rw [List.forall_mem_cons] at hlines'
          rw [hcons, hcons] at h
          obtain ⟨rfl, hrest⟩ := line_inj hlines.1.1 hlines'.1.1 h
          obtain ⟨rfl, hs⟩ := ih hlines.2 hlines'.2 hrest
          exact ⟨rfl, hs⟩

/-- The lines of a head hold no line end, and none is empty. -/
lemma linefeed_notMem_head {start : Bytes} {statusCode : ℕ} {lines : List Bytes}
    {headers : List (Bytes × Bytes)} (hstart : IsStatusLine start statusCode)
    (hlines : List.Forall₂ (fun line h => IsFieldLine line h.1 h.2) lines headers) :
    ∀ l ∈ start :: lines, 0x0a ∉ l ∧ l ≠ [] := by
  refine List.forall_mem_cons.mpr ⟨linefeed_notMem_statusLine hstart, ?_⟩
  induction hlines with
  | nil => simp
  | cons hline _ ih =>
      obtain ⟨hlf, hcolon⟩ := linefeed_notMem_fieldLine hline
      exact List.forall_mem_cons.mpr ⟨⟨hlf, List.ne_nil_of_mem hcolon⟩, ih⟩

/-- **A response without a body** ends with its head. -/
theorem IsResponse.of_absent {method s : Bytes} {r : Response} (h : IsResponse method s r)
    (habsent : bodyFraming method r.statusCode r.headers = .absent) {lines : List Bytes}
    (hlines : ∀ l ∈ lines, 0x0a ∉ l ∧ l ≠ []) {content : Bytes}
    (hs : s = lineBytes lines ++ eol ++ content) : content = [] := by
  obtain ⟨start, lines', content', hstart, hlines', hbody, rfl⟩ := h.bytes
  rw [habsent] at hbody
  obtain ⟨rfl, -⟩ := hbody
  exact (lineBytes_inj hlines (linefeed_notMem_head hstart hlines') hs.symm).2

end Http1
