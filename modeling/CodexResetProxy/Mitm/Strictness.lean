import CodexResetProxy.Library.Http1
import CodexResetProxy.Mitm.Reader
import CodexResetProxy.Mitm.WireChunks

/-!
What `_read_chunked_body` takes for a chunked body, against the syntax of one.

* `StrictlyFramed`: the size lines, the ends of chunks and the trailers of a stream,
  one after the other, are as the syntax has them.
* `StrictChunks.chunkedBody`, `strictChunks_of_chunkedBody`: what is read of such a
  stream is a chunked body, and every chunked body makes one.
* `chunkedBody_iff`: **when what is read is a chunked body.**  The reader takes whatever
  `int` takes for a size, any two bytes for the end of a chunk, any line for a trailer,
  and LF or the end of the stream for the end of a body.
-/

namespace CodexResetProxy

open PyStr ByteStr StreamReader Http1

/-! ### Strict framing -/

/-- Trailer lines, up to an empty one. -/
def StrictTrailers : ℕ → Bytes → Prop
  | 0, _ => False
  | fuel + 1, s => firstLine s = eol ∨
      (∃ line name value, IsFieldLine line name value ∧ firstLine s = line ++ eol) ∧
        StrictTrailers fuel (s.drop (firstLine s).length)

/-- Chunks, up to one of size zero, and the trailer lines. -/
def StrictChunks : ℕ → Bytes → Prop
  | 0, _ => False
  | fuel + 1, s => ∃ line size, IsSizeLine line size ∧ firstLine s = line ++ eol ∧
      if size = 0 then StrictTrailers (fuel + 1) (s.drop (firstLine s).length)
      else ((s.drop (firstLine s).length).drop size).take 2 = eol ∧
        StrictChunks fuel ((s.drop (firstLine s).length).drop (size + 2))

/-- A stream that starts with strictly framed chunks. -/
def StrictlyFramed (s : Bytes) : Prop := StrictChunks (s.length + 1) s

/-! ### Lines -/

variable {limit fuel n size : ℕ} {s t : Stream} {b body line rest : Bytes}

/-- The first line of a text is what comes before its line end. -/
lemma firstLine_append (hline : 0x0a ∉ line) (rest : Bytes) :
    firstLine (line ++ eol ++ rest) = line ++ eol := by
  have hcr : 0x0a ∉ line ++ [0x0d] := by simp [hline]
  have hsplit : line ++ eol ++ rest = line ++ [0x0d] ++ 0x0a :: rest := by simp [eol]
  have hfind := @find_singleton (line ++ [0x0d]) rest 0x0a hcr
  rw [← hsplit] at hfind
  have hlength : (line ++ [0x0d]).length + 1 = (line ++ eol).length := by simp [eol]
  rw [firstLine, hfind]
  dsimp only
  rw [hlength, List.take_left]

/-- A strict size line is read as its size. -/
lemma chunkSize_of_isSizeLine (h : IsSizeLine line size) :
    chunkSize (line ++ eol) = some (size : ℤ) := by
  obtain ⟨digits, ext, hne, hhex, hext, rfl, rfl⟩ := h
  have hlf := linefeed_notMem_chunkExt hext
  have hcontent : ∀ l : SizeLine, l.digits = digits → l.blank ++ l.extension = ext →
      chunkSize (digits ++ ext ++ eol) = some (ofDigits 16 (digits.map digitValue) : ℤ) := by
    rintro l rfl rfl
    rw [show l.digits ++ (l.blank ++ l.extension) ++ eol = l.content ++ [0x0a] by
      simp [SizeLine.content, eol]]
    exact chunkSize_content l
  rcases chunkExt_start hext with rfl | ⟨blank, t, hblank, rfl⟩
  · exact hcontent ⟨digits, [], [], hne, hhex, by simp [IsBlank], by simp, by simp⟩ rfl rfl
  · rw [List.mem_append, not_or] at hlf
    exact hcontent ⟨digits, blank, 0x3b :: t, hne, hhex, hblank, by simp, hlf.2⟩ rfl rfl

/-! ### What is read -/

/-- What a line leaves. -/
lemma readline_drop {u : Stream} (h : (readline streamLimit : Mitm Bytes) s = .ok (line, u)) :
    line = firstLine s.bytes ∧ s.bytes = firstLine s.bytes ++ u.bytes ∧
      s.bytes.drop (firstLine s.bytes).length = u.bytes := by
  obtain ⟨hline, hs⟩ := readline_eq_firstLine h
  have hbytes : s.bytes = firstLine s.bytes ++ u.bytes := hline ▸ congrArg Stream.bytes hs
  exact ⟨hline, hbytes, (congrArg (List.drop _) hbytes).trans List.drop_left⟩

/-- Strict trailers are skipped as a trailer section. -/
lemma StrictTrailers.trailerSection (h : skipTrailers fuel s = .ok ((), t))
    (hstrict : StrictTrailers n s.bytes) : ∃ w, s.bytes = w ++ t.bytes ∧ TrailerSection w := by
  induction fuel generalizing n s with
  | zero => simp [skipTrailers] at h
  | succ fuel ih =>
      obtain ⟨n, rfl⟩ : ∃ m, n = m + 1 := by
        cases n with
        | zero => exact hstrict.elim
        | succ m => exact ⟨m, rfl⟩
      rw [skipTrailers] at h
      obtain ⟨line, u, hline, h⟩ := bind_eq_ok.mp h
      obtain ⟨rfl, hs, hu⟩ := readline_drop hline
      rcases hstrict with hend | ⟨⟨line, name, value, hfield, hfirst⟩, hstrict⟩
      · rw [hend, if_pos (by decide)] at h
        obtain ⟨-, rfl⟩ := Prod.mk.inj (Except.ok.inj h)
        rw [hend] at hs
        exact ⟨eol, hs, .nil⟩
      · have hnotLast : firstLine s.bytes ∉ [[0x0d, 0x0a], [0x0a], []] := by
          intro hmem
          have hcolon : 0x3a ∈ firstLine s.bytes :=
            hfirst ▸ List.mem_append_left _ (linefeed_notMem_fieldLine hfield).2
          simp only [List.mem_cons, List.not_mem_nil, or_false] at hmem
          rcases hmem with hmem | hmem | hmem <;> simp [hmem] at hcolon
        rw [if_neg hnotLast] at h
        rw [hu] at hstrict
        obtain ⟨w, hw, hsection⟩ := ih h hstrict
        rw [hw, hfirst, ← List.append_assoc] at hs
        exact ⟨_, hs, .cons hfield hsection⟩

/-- **Strict chunks** are read as a chunked body. -/
theorem StrictChunks.chunkedBody (h : readChunks limit fuel body s = .ok (b, t))
    (hstrict : StrictChunks n s.bytes) :
    ∃ w payload, s.bytes = w ++ t.bytes ∧ b = body ++ payload ∧ ChunkedBody w payload := by
  induction fuel generalizing n s body with
  | zero => simp [readChunks] at h
  | succ fuel ih =>
      obtain ⟨n, rfl⟩ : ∃ m, n = m + 1 := by
        cases n with
        | zero => exact hstrict.elim
        | succ m => exact ⟨m, rfl⟩
      rw [readChunks] at h
      obtain ⟨line, u, hline, h⟩ := bind_eq_ok.mp h
      obtain ⟨rfl, hs, hu⟩ := readline_drop hline
      obtain ⟨line, size, hsizeLine, hfirst, hrest⟩ := hstrict
      rw [hu] at hrest
      rw [hfirst, chunkSize_of_isSizeLine hsizeLine] at h
      dsimp only at h
      by_cases hzero : size = 0
      -- the last chunk: the trailers are all that follows
      · subst hzero
        rw [if_pos Nat.cast_zero] at h
        rw [if_pos rfl] at hrest
        obtain ⟨⟨⟩, v, hskip, hbody⟩ := bind_eq_ok.mp h
        obtain ⟨rfl, rfl⟩ := Prod.mk.inj (Except.ok.inj hbody)
        obtain ⟨w, hw, hsection⟩ := hrest.trailerSection hskip
        rw [hw, hfirst, ← List.append_assoc] at hs
        exact ⟨_, [], hs, (List.append_nil _).symm, .last hsizeLine hsection⟩
      · rw [if_neg (by simpa using hzero)] at h
        rw [if_neg hzero] at hrest
        obtain ⟨chunk, v, hchunk, hthen⟩ := bind_eq_ok.mp h
        obtain ⟨hu', hlength⟩ := readexactly_eq_ok hchunk
        obtain rfl : chunk.length = size := Int.ofNat_inj.mp hlength
        by_cases hlarge : limit < (body ++ chunk).length
        · rw [if_pos hlarge] at hthen
          simp at hthen
        rw [if_neg hlarge] at hthen
        -- the two bytes after the data, which are not looked at
        obtain ⟨ends, x, hends, hnext⟩ := bind_eq_ok.mp hthen
        obtain ⟨hv, htwo⟩ := readexactly_eq_ok hends
        have hubytes : u.bytes = chunk ++ (ends ++ x.bytes) := by rw [hu', hv]
        have htwo' : ends.length = 2 := by omega
        have hdrop : u.bytes.drop (chunk.length + 2) = x.bytes := by
          rw [hubytes, ← List.append_assoc, ← htwo', ← List.length_append, List.drop_left]
        rw [hdrop, hubytes, List.drop_left, ← htwo', List.take_left] at hrest
        -- in a strict stream they are CR LF
        obtain ⟨rfl, hstrict⟩ := hrest
        obtain ⟨w, payload, hw, rfl, hbody⟩ := ih hnext hstrict
        refine ⟨line ++ eol ++ chunk ++ eol ++ w, chunk ++ payload, ?_, List.append_assoc _ _ _,
          .chunk hsizeLine (by simpa using hzero) hbody⟩
        rw [hs, hfirst, hubytes, hw]
        simp

/-- A trailer section makes strict trailers. -/
lemma strictTrailers_of_trailerSection {w : Bytes} (h : TrailerSection w)
    (hn : (w ++ rest).length < n) : StrictTrailers n (w ++ rest) := by
  obtain ⟨n, rfl⟩ := Nat.exists_eq_succ_of_ne_zero (Nat.ne_zero_of_lt hn)
  induction h generalizing n with
  | nil => exact .inl (@firstLine_append [] List.not_mem_nil rest)
  | @cons line name value w hfield hsection ih =>
      have hfirst : firstLine (line ++ eol ++ w ++ rest) = line ++ eol := by
        rw [List.append_assoc _ w]
        exact firstLine_append (linefeed_notMem_fieldLine hfield).1 _
      refine .inr ⟨⟨line, name, value, hfield, hfirst⟩, ?_⟩
      rw [hfirst, List.append_assoc _ w, List.drop_left]
      obtain ⟨n, rfl⟩ : ∃ m, n = m + 1 := by
        refine Nat.exists_eq_succ_of_ne_zero ?_
        simp [eol] at hn
        omega
      refine ih n ?_
      simp [eol] at hn ⊢
      omega

/-- **A chunked body** makes strict chunks, whatever follows it. -/
theorem strictChunks_of_chunkedBody {w payload : Bytes} (h : ChunkedBody w payload)
    (hn : (w ++ rest).length < n) : StrictChunks n (w ++ rest) := by
  obtain ⟨n, rfl⟩ := Nat.exists_eq_succ_of_ne_zero (Nat.ne_zero_of_lt hn)
  induction h generalizing n with
  | @last line w hsizeLine hsection =>
      have hfirst : firstLine (line ++ eol ++ w ++ rest) = line ++ eol := by
        rw [List.append_assoc _ w]
        exact firstLine_append (linefeed_notMem_sizeLine hsizeLine) _
      refine ⟨line, 0, hsizeLine, hfirst, ?_⟩
      rw [if_pos rfl, hfirst, List.append_assoc _ w, List.drop_left]
      refine strictTrailers_of_trailerSection hsection ?_
      simp [eol] at hn ⊢
      omega
  | @chunk line data w payload hsizeLine hne hbody ih =>
      have hstream : line ++ eol ++ data ++ eol ++ w ++ rest
          = line ++ eol ++ (data ++ (eol ++ (w ++ rest))) := by simp
      have hfirst : firstLine (line ++ eol ++ data ++ eol ++ w ++ rest) = line ++ eol := by
        rw [hstream]
        exact firstLine_append (linefeed_notMem_sizeLine hsizeLine) _
      refine ⟨line, data.length, hsizeLine, hfirst, ?_⟩
      rw [if_neg (by simpa using hne), hfirst, hstream, List.drop_left, List.drop_left]
      refine ⟨rfl, ?_⟩
      rw [← List.append_assoc data, show data.length + 2 = (data ++ eol).length by simp [eol],
        List.drop_left]
      obtain ⟨n, rfl⟩ : ∃ m, n = m + 1 := by
        refine Nat.exists_eq_succ_of_ne_zero ?_
        simp [eol] at hn
        omega
      refine ih n ?_
      simp [eol] at hn ⊢
      omega

/-- **When what is read is a chunked body.** -/
theorem chunkedBody_iff (h : readChunkedBody limit s = .ok (b, t)) :
    (∃ w, s.bytes = w ++ t.bytes ∧ ChunkedBody w b) ↔ StrictlyFramed s.bytes := by
  constructor
  · rintro ⟨w, hw, hbody⟩
    rw [StrictlyFramed, hw]
    exact strictChunks_of_chunkedBody hbody (Nat.lt_succ_self _)
  · intro hstrict
    obtain ⟨w, payload, hw, rfl, hbody⟩ := hstrict.chunkedBody h
    exact ⟨w, hw, hbody⟩

lemma carriageReturn_mem_chunkedBody {w payload : Bytes} (h : ChunkedBody w payload) :
    0x0d ∈ w := by
  cases h <;> simp [eol]

/-- Lines that end in LF alone: what is read of them is no chunked body. -/
theorem not_chunkedBody_lineFeed :
    readChunkedBody 10 ⟨ascii "1\na__0\n\n", true⟩ = .ok (ascii "a", ⟨[], true⟩) ∧
      ¬∃ w, ascii "1\na__0\n\n" = w ++ [] ∧ ChunkedBody w (ascii "a") := by
  refine ⟨by decide +kernel, ?_⟩
  rintro ⟨w, hw, hbody⟩
  rw [List.append_nil] at hw
  exact absurd (hw ▸ carriageReturn_mem_chunkedBody hbody) (by decide)

/-- A chunk and the end of a body, with something after it. -/
theorem strictlyFramed_chunk :
    readChunkedBody 10 ⟨ascii "1\r\na\r\n0\r\n\r\nG", true⟩ = .ok (ascii "a", ⟨ascii "G", true⟩) ∧
      StrictlyFramed (ascii "1\r\na\r\n0\r\n\r\nG") := by
  have hread : readChunkedBody 10 ⟨ascii "1\r\na\r\n0\r\n\r\nG", true⟩
      = .ok (ascii "a", ⟨ascii "G", true⟩) := by decide +kernel
  have hone : IsSizeLine (ascii "1") 1 := ⟨ascii "1", [], by decide +kernel,
    by decide +kernel, .nil, by decide +kernel, by decide +kernel⟩
  have hzero : IsSizeLine (ascii "0") 0 := ⟨ascii "0", [], by decide +kernel,
    by decide +kernel, .nil, by decide +kernel, by decide +kernel⟩
  have hbody : ChunkedBody (ascii "1" ++ eol ++ ascii "a" ++ eol ++ (ascii "0" ++ eol ++ eol))
      (ascii "a" ++ []) := .chunk hone (by decide +kernel) (.last hzero .nil)
  rw [List.append_nil] at hbody
  exact ⟨hread, (chunkedBody_iff hread).mp ⟨_, by decide +kernel, hbody⟩⟩

end CodexResetProxy
