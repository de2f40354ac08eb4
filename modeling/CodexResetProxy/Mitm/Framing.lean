import CodexResetProxy.Mitm.Reader

/-!
Whether the `Content-Length` fields that are forwarded with a request agree with
the body that is forwarded.

* `declaredLength`: the length that the framing of a request declares, by the sizes
  of its chunks or by its last `Content-Length`; `length_body`: the body has it.
* `framingAgrees_iff`: **when the fields agree**.  `Transfer-Encoding` is left out
  and the chunks are put together, but a `Content-Length` beside it is forwarded,
  and so is every spelling of a number that `int` accepts.
-/

namespace CodexResetProxy

open PyStr ByteStr StreamReader

/-! ### Declared lengths -/

/-- The sum of the sizes that size lines declare, up to a size of 0. -/
def declaredSizes : ℕ → Bytes → ℤ
  | 0, _ => 0
  | fuel + 1, s =>
      match chunkSize (firstLine s) with
      | none => 0
      | some size =>
          if size = 0 then 0
          else size + declaredSizes fuel (s.drop ((firstLine s).length + size.toNat + 2))

/-- The length of the header block. -/
def headLength (s : Bytes) : ℕ :=
  match find (crlf ++ crlf) s with
  | none => s.length
  | some i => i + (crlf ++ crlf).length

/-- The headers that a client sends. -/
def sentHeaders (s : Bytes) : RawHeaders := headersOf (headerLines (s.take (headLength s))).tail

/-- The length that the framing of a request declares. -/
def declaredLength (s : Bytes) : ℤ :=
  if (sentHeaders s).any (IsChunked ·) then
    declaredSizes ((s.drop (headLength s)).length + 1) (s.drop (headLength s))
  else lastContentLength (sentHeaders s)

/-! ### The body has the declared length -/

variable {limit : ℕ} {body result : Bytes} {s t u : Stream} {request : HttpRequest}
  {settings : Settings}

/-- A chunked body is as long as its size lines say. -/
lemma length_readChunks {fuel : ℕ} (h : readChunks limit fuel body s = .ok (result, t)) :
    (result.length : ℤ) = body.length + declaredSizes fuel s.bytes := by
  induction fuel generalizing body s with
  | zero => simp [readChunks] at h
  | succ fuel ih =>
      rw [readChunks] at h
      obtain ⟨line, u, hline, h⟩ := bind_eq_ok.mp h
      obtain ⟨hfirst, hs⟩ := readline_eq_firstLine hline
      rw [declaredSizes, ← hfirst]
      cases hsize : chunkSize line with
      | none => simp [hsize] at h
      | some size =>
          rw [hsize] at h
          dsimp only at h ⊢
          split_ifs at h ⊢ with hzero
          · obtain ⟨_, v, -, h⟩ := bind_eq_ok.mp h
            obtain ⟨rfl, -⟩ := Prod.mk.inj (Except.ok.inj h)
            simp
          · obtain ⟨chunk, v, hchunk, h⟩ := bind_eq_ok.mp h
            split_ifs at h with hlarge
            · simp at h
            obtain ⟨end_, w, hend, h⟩ := bind_eq_ok.mp h
            obtain ⟨hu, hlength⟩ := readexactly_eq_ok hchunk
            obtain ⟨hv, htwo⟩ := readexactly_eq_ok hend
            -- what is left after the chunk is what its size says
            have hrest : w.bytes = s.bytes.drop (line.length + size.toNat + 2) := by
              have hbytes : s.bytes = (line ++ chunk ++ end_) ++ w.bytes := by
                rw [hs, hu, hv]; simp
              have hsum : line.length + size.toNat + 2 = (line ++ chunk ++ end_).length := by
                simp only [List.length_append]
                omega
              rw [hbytes, hsum, List.drop_left]
            have hrec := ih h
            rw [hrest, List.length_append] at hrec
            push_cast at hrec
            omega

lemma length_readBody {f : HeaderFields} (h : readBody limit f s = .ok (body, t)) :
    (body.length : ℤ) =
      if f.chunked then declaredSizes (s.bytes.length + 1) s.bytes else f.contentLength := by
  rw [readBody] at h
  by_cases hchunked : f.chunked
  · rw [if_pos hchunked] at h ⊢
    simpa using length_readChunks h
  rw [if_neg hchunked] at h ⊢
  by_cases hlarge : (limit : ℤ) < f.contentLength
  · simp [hlarge] at h
  rw [if_neg hlarge] at h
  by_cases hzero : f.contentLength = 0
  · rw [if_pos hzero] at h
    obtain ⟨rfl, -⟩ := Prod.mk.inj (Except.ok.inj h)
    simp [hzero]
  · rw [if_neg hzero] at h
    exact (readexactly_eq_ok h).2

/-- **The body has the length that the framing declares.** -/
theorem length_body (h : readHttpRequest limit s = .ok (some request, t)) :
    request.headers = sentHeaders s.bytes ∧
      (request.body.length : ℤ) = declaredLength s.bytes := by
  obtain ⟨block, u, hblock, h⟩ := readHttpRequest_eq_ok h
  obtain ⟨-, -, hheaders, hbody⟩ := readAfterBlock_eq_ok h
  obtain ⟨hs, i, hi, htake⟩ := readuntil_eq_ok hblock
  have hhead : headLength s.bytes = i + (crlf ++ crlf).length := by rw [headLength, hi]
  have hsent : request.headers = sentHeaders s.bytes := by
    rw [hheaders, sentHeaders, hhead, htake]
  have hrest : u.bytes = s.bytes.drop (headLength s.bytes) := by
    have hblockLength : block.length = headLength s.bytes := by
      rw [htake, List.length_take, hhead]
      exact min_eq_left (length_le_of_find hi)
    rw [← hblockLength, hs, List.drop_left]
  refine ⟨hsent, ?_⟩
  rw [length_readBody hbody, hsent, hrest]
  rfl

/-! ### Agreement -/

/-- A plain number of ASCII digits, and which. -/
def PlainNumber (value : Bytes) (n : ℤ) : Prop :=
  value ≠ [] ∧ (∀ c ∈ value, 0x30 ≤ c ∧ c ≤ 0x39) ∧ (ofDigits 10 (value.map digitValue) : ℤ) = n

instance (value : Bytes) (n : ℤ) : Decidable (PlainNumber value n) :=
  inferInstanceAs (Decidable (value ≠ [] ∧ (∀ c ∈ value, 0x30 ≤ c ∧ c ≤ 0x39) ∧
    (ofDigits 10 (value.map digitValue) : ℤ) = n))

/-- Every `Content-Length` field that is forwarded is the length of the body. -/
def FramingAgrees (settings : Settings) (request : HttpRequest) : Prop :=
  ∀ headers, filteredRequestHeadersFromRaw settings request.headers = some headers →
    ∀ h ∈ headers, IsContentLength h → PlainNumber h.2 request.body.length

/-- The lengths of a request agree: every `Content-Length` field is a plain number
and the one that the framing declares, unless the field is nominated or gives way to
the header with the key; and so is the key if that header has this name. -/
structure LengthsAgree (s : Bytes) (key? : Option (Bytes × Bytes)) : Prop where
  fields : ascii "content-length" ∉ nominated (sentHeaders s) →
    (∀ key ∈ key?, ¬IsContentLength key) →
      ∀ h ∈ sentHeaders s, IsContentLength h → PlainNumber h.2 (declaredLength s)
  key : ∀ key ∈ key?, IsContentLength key → PlainNumber key.2 (declaredLength s)

lemma contentLength_notMem_skipSet {headers : RawHeaders} :
    ascii "content-length" ∉ skipSet headers requestOnlyHeaders ↔
      ascii "content-length" ∉ nominated headers := by
  have hfixed : ascii "content-length" ∉ hopByHopHeaders ++ requestOnlyHeaders := by decide
  rw [skipSet, List.mem_append, not_or]
  exact and_iff_right hfixed

/-- **When the forwarded lengths agree with the body.** -/
theorem framingAgrees_iff (h : readHttpRequest limit s = .ok (some request, t)) :
    FramingAgrees settings request ↔
      ∀ key?, settings.keyHeader? = some key? → LengthsAgree s.bytes key? := by
  obtain ⟨hsent, hlength⟩ := length_body h
  rw [FramingAgrees, hsent, hlength, forall_mem_filteredRequestHeadersFromRaw]
  refine forall₂_congr fun key? _ => ?_
  constructor
  · rintro ⟨hkeyHeader, hclient⟩
    constructor
    case fields =>
      intro hnominated hname h hh hcl
      refine hclient h hh ?_ ?_ hcl
      · rw [hcl]
        exact contentLength_notMem_skipSet.mpr hnominated
      · exact fun key hkeyMem heq => hname key hkeyMem (heq.symm.trans hcl)
    case key => exact hkeyHeader
  · intro hlengths
    refine ⟨hlengths.key, fun h hh hskip hname hcl => hlengths.fields ?_ ?_ h hh hcl⟩
    · rw [hcl] at hskip
      exact contentLength_notMem_skipSet.mp hskip
    · exact fun key hkeyMem hkeyCl => hname key hkeyMem (hcl.trans hkeyCl.symm)

/-- A chunked request with a length beside it. -/
def conflictingLengths : Bytes :=
  ascii "POST /a HTTP/1.1\r\nContent-Length: 5\r\nTransfer-Encoding: chunked\r\n\r\n0\r\n\r\n"

/-- The length is forwarded, and the body is empty. -/
theorem not_framingAgrees_conflicting :
    ∃ request, readHttpRequest 100 ⟨conflictingLengths, true⟩ = .ok (some request, ⟨[], true⟩) ∧
      ¬FramingAgrees {} request := by
  refine ⟨⟨py "POST", py "/a", py "HTTP/1.1",
    [(ascii "Content-Length", ascii "5"), (ascii "Transfer-Encoding", ascii "chunked")], []⟩,
    by decide +kernel, fun hagree => ?_⟩
  have hplain := hagree [(ascii "Content-Length", ascii "5")] (by decide +kernel)
    (ascii "Content-Length", ascii "5") (List.mem_singleton_self _) (by decide +kernel)
  exact absurd hplain (by decide +kernel)

/-- Two lengths that agree. -/
theorem framingAgrees_repeated :
    ∃ request, readHttpRequest 100
        ⟨ascii "POST /a HTTP/1.1\r\nContent-Length: 2\r\nContent-Length: 02\r\n\r\nhi", true⟩
        = .ok (some request, ⟨[], true⟩) ∧
      FramingAgrees {} request := by
  have hread : readHttpRequest 100
      ⟨ascii "POST /a HTTP/1.1\r\nContent-Length: 2\r\nContent-Length: 02\r\n\r\nhi", true⟩
      = .ok (some ⟨py "POST", py "/a", py "HTTP/1.1",
        [(ascii "Content-Length", ascii "2"), (ascii "Content-Length", ascii "02")], ascii "hi"⟩,
        ⟨[], true⟩) := by decide +kernel
  refine ⟨_, hread, (framingAgrees_iff hread).mpr fun key? hkey => ?_⟩
  obtain rfl : none = key? := Option.some.inj hkey
  exact ⟨fun _ _ => by decide +kernel, fun key hkey => by simp at hkey⟩

end CodexResetProxy
