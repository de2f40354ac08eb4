import CodexResetProxy.Mitm.Chunked

/-!
Chunked bodies as clients send them, with extensions and trailers, and how they are
read.

* `WireChunks`: a body by its parts, none of which can be mistaken for another.
* `readChunks_wire`: **the chunks are read**, if no line is too long; whether the body
  is too large depends on its length alone.
-/

namespace CodexResetProxy

open ByteStr StreamReader

/-! ### The parts of a body -/

/-- Blanks. -/
def IsBlank (s : Bytes) : Prop := ∀ c ∈ s, c = 0x20 ∨ c = 0x09

instance : DecidablePred IsBlank := List.decidableBAll fun c => c = 0x20 ∨ c = 0x09

/-- A size line: hexadecimal digits, blanks, and extensions after a semicolon. -/
structure SizeLine where
  digits : Bytes
  blank : Bytes
  extension : Bytes
  digits_ne_nil : digits ≠ []
  digits_hex : ∀ c ∈ digits, digitValue c < 16
  isBlank : IsBlank blank
  extension_start : ∀ c ∈ extension.head?, c = 0x3b
  extension_line : 0x0a ∉ extension

/-- The size. -/
def SizeLine.size (l : SizeLine) : ℕ := ofDigits 16 (l.digits.map digitValue)

/-- The line, up to its line feed. -/
def SizeLine.content (l : SizeLine) : Bytes := l.digits ++ l.blank ++ l.extension ++ [0x0d]

/-- A chunk, which is not the last one. -/
structure WireChunk where
  line : SizeLine
  data : Bytes
  size_eq : line.size = data.length
  ne_nil : data ≠ []

/-- A trailer line, up to its line feed. -/
structure WireTrailer where
  content : Bytes
  line : 0x0a ∉ content
  notLast : content ≠ [] ∧ content ≠ [0x0d]

/-- A chunked body. -/
structure WireChunks where
  chunks : List WireChunk
  last : SizeLine
  trailers : List WireTrailer
  last_size : last.size = 0

/-- A chunk as it is sent. -/
def WireChunk.bytes (c : WireChunk) : Bytes := c.line.content ++ 0x0a :: (c.data ++ crlf)

/-- What follows the chunks. -/
def WireChunks.tail (c : WireChunks) : Bytes :=
  c.last.content ++ 0x0a :: (c.trailers.flatMap (fun t => t.content ++ [0x0a]) ++ crlf)

/-! ### What fits -/

/-- No line of a chunked body is too long. -/
structure WireChunks.Fits (c : WireChunks) : Prop where
  chunks : ∀ chunk ∈ c.chunks, chunk.line.content.length ≤ streamLimit
  last : c.last.content.length ≤ streamLimit
  trailers : ∀ t ∈ c.trailers, t.content.length ≤ streamLimit

/-! ### Reading -/

lemma notMem_content (l : SizeLine) : 0x0a ∉ l.content := by
  have hdigits : 0x0a ∉ l.digits := fun h =>
    (of_digitValue_lt le_rfl (l.digits_hex _ h)).2.2.2.2.2.2.2 rfl
  have hblank : 0x0a ∉ l.blank := fun h => by simpa using l.isBlank _ h
  simp [SizeLine.content, hdigits, hblank, l.extension_line]

/-- **A size line** is read as its size. -/
theorem chunkSize_content (l : SizeLine) : chunkSize (l.content ++ [0x0a]) = some (l.size : ℤ) := by
  have hdigits : ∀ c ∈ l.digits, decide (c ≠ 0x3b) = true := fun c hc =>
    decide_eq_true (of_digitValue_lt le_rfl (l.digits_hex c hc)).2.2.2.2.2.2.1
  have hblank : ∀ c ∈ l.blank, decide (c ≠ 0x3b) = true ∧ isSpace c = true := by
    intro c hc
    rcases l.isBlank c hc with rfl | rfl <;> exact ⟨rfl, rfl⟩
  -- what is left of the line before a semicolon
  obtain ⟨t, ht, htake⟩ : ∃ t, (∀ c ∈ t, isSpace c) ∧
      (l.content ++ [0x0a]).takeWhile (· ≠ 0x3b) = l.digits ++ t := by
    rw [SizeLine.content, List.append_assoc, List.append_assoc, List.append_assoc,
      List.takeWhile_append_of_pos hdigits,
      List.takeWhile_append_of_pos fun c hc => (hblank c hc).1]
    cases hext : l.extension with
    | nil =>
        refine ⟨l.blank ++ crlf, fun c hc => ?_, by simp [crlf]⟩
        rcases List.mem_append.mp hc with hc | hc
        · exact (hblank c hc).2
        · exact (of_mem_crlf hc).1
    | cons c s =>
        obtain rfl : c = 0x3b := l.extension_start c (by simp [hext])
        exact ⟨l.blank, fun c hc => (hblank c hc).2, by simp⟩
  have hspace : ∀ c ∈ l.digits, ¬isSpace c := fun c hc =>
    (of_digitValue_lt le_rfl (l.digits_hex c hc)).1
  have hint := @pyInt_digits 16 le_rfl l.digits [] l.digits_ne_nil l.digits_hex (by simp)
  rw [List.append_nil] at hint
  rw [chunkSize, htake, strip_append l.digits_ne_nil hspace ht, hint, if_neg (by simp)]
  rfl

variable {limit fuel : ℕ} {body rest : Bytes} {eof : Bool}

/-- **The trailers are skipped**, unless one of them is too long. -/
lemma skipTrailers_wire (trailers : List WireTrailer) (hfuel : trailers.length < fuel) :
    skipTrailers fuel ⟨trailers.flatMap (fun t => t.content ++ [0x0a]) ++ crlf ++ rest, eof⟩
      = if ∀ t ∈ trailers, t.content.length ≤ streamLimit then .ok ((), ⟨rest, eof⟩)
        else .error .value := by
  induction trailers generalizing fuel with
  | nil =>
      obtain ⟨fuel, rfl⟩ := Nat.exists_eq_succ_of_ne_zero (Nat.ne_zero_of_lt hfuel)
      rw [List.flatMap_nil, List.nil_append, skipTrailers_crlf, if_pos (by simp)]
  | cons trailer trailers ih =>
      obtain ⟨fuel, rfl⟩ := Nat.exists_eq_succ_of_ne_zero (Nat.ne_zero_of_lt hfuel)
      have hstream : (trailer :: trailers).flatMap (fun t => t.content ++ [0x0a]) ++ crlf ++ rest
          = trailer.content ++ 0x0a :: (trailers.flatMap (fun t => t.content ++ [0x0a]) ++ crlf
            ++ rest) := by simp
      have hline := @readline_line RequestBodyTooLarge streamLimit trailer.content trailer.line
        (trailers.flatMap (fun t => t.content ++ [0x0a]) ++ crlf ++ rest) eof
      have hnotLast : trailer.content ++ [0x0a] ∉ [[0x0d, 0x0a], [0x0a], []] := by
        intro hmem
        simp only [List.mem_cons, List.not_mem_nil, or_false] at hmem
        rcases hmem with hmem | hmem | hmem
        · exact trailer.notLast.2 (@List.append_cancel_right _ trailer.content [0x0a] [0x0d] hmem)
        · exact trailer.notLast.1 (@List.append_cancel_right _ trailer.content [0x0a] [] hmem)
        · exact absurd hmem (by simp)
      rw [hstream, skipTrailers]
      simp only [List.forall_mem_cons]
      by_cases hlong : streamLimit < trailer.content.length
      · rw [if_pos hlong] at hline
        rw [bind_of_error hline, if_neg fun h => absurd h.1 (by omega)]
      · rw [if_neg hlong] at hline
        rw [bind_of_ok hline, if_neg hnotLast, ih (by simpa using hfuel)]
        simp only [Nat.not_lt.mp hlong, true_and]

/-- **One chunk** is read, unless its size line is too long or the body gets too
large. -/
lemma readChunks_chunk (chunk : WireChunk) (t : Bytes) :
    readChunks limit (fuel + 1) body ⟨chunk.bytes ++ t, eof⟩
      = if streamLimit < chunk.line.content.length then .error .value
        else if limit < (body ++ chunk.data).length then .error (.raised (bodyTooLarge limit))
        else readChunks limit fuel (body ++ chunk.data) ⟨t, eof⟩ := by
  have hstream : chunk.bytes ++ t = chunk.line.content ++ 0x0a :: (chunk.data ++ (crlf ++ t)) := by
    simp [WireChunk.bytes]
  have hsize : chunkSize (chunk.line.content ++ [0x0a]) = some (chunk.data.length : ℤ) := by
    rw [chunkSize_content, chunk.size_eq]
  rw [hstream, readChunks_sized (notMem_content chunk.line) hsize chunk.ne_nil]

/-- The end of a chunked body is read, unless one of its lines is too long. -/
lemma readChunks_tail (c : WireChunks) (hfuel : c.trailers.length < fuel) :
    readChunks limit fuel body ⟨c.tail ++ rest, eof⟩
      = if c.last.content.length ≤ streamLimit ∧ ∀ t ∈ c.trailers, t.content.length ≤ streamLimit
        then .ok (body, ⟨rest, eof⟩) else .error .value := by
  obtain ⟨fuel, rfl⟩ := Nat.exists_eq_succ_of_ne_zero (Nat.ne_zero_of_lt hfuel)
  have hstream : c.tail ++ rest = c.last.content
      ++ 0x0a :: (c.trailers.flatMap (fun t => t.content ++ [0x0a]) ++ crlf ++ rest) := by
    simp [WireChunks.tail]
  have hsize : chunkSize (c.last.content ++ [0x0a]) = some 0 := by
    rw [chunkSize_content, c.last_size, Nat.cast_zero]
  have hskip := @skipTrailers_wire (fuel + 1) rest eof c.trailers hfuel
  rw [hstream, readChunks_last (notMem_content c.last) hsize]
  by_cases hlong : streamLimit < c.last.content.length
  · rw [if_pos hlong, if_neg fun h => absurd h.1 (by omega)]
  · rw [if_neg hlong]
    by_cases htrailers : ∀ t ∈ c.trailers, t.content.length ≤ streamLimit
    · rw [if_pos htrailers] at hskip
      rw [if_pos ⟨Nat.not_lt.mp hlong, htrailers⟩, bind_of_ok hskip]
      rfl
    · rw [if_neg htrailers] at hskip
      rw [if_neg fun h => htrailers h.2, bind_of_error hskip]

lemma length_trailers_le (trailers : List WireTrailer) :
    trailers.length ≤ (trailers.flatMap fun t => t.content ++ [0x0a]).length := by
  induction trailers with
  | nil => exact Nat.zero_le _
  | cons t trailers ih =>
      rw [List.flatMap_cons, List.length_append, List.length_append, List.length_cons,
        List.length_singleton]
      omega

/-- **The chunks are read**, one after the other. -/
theorem readChunks_wire (c : WireChunks) {chunks : List WireChunk} (hbody : body.length ≤ limit)
    (hfuel : (chunks.flatMap WireChunk.bytes ++ (c.tail ++ rest)).length < fuel) :
    (WireChunks.Fits { c with chunks } →
      readChunks limit fuel body ⟨chunks.flatMap WireChunk.bytes ++ (c.tail ++ rest), eof⟩
        = if limit < (body ++ chunks.flatMap WireChunk.data).length
          then .error (.raised (bodyTooLarge limit))
          else .ok (body ++ chunks.flatMap WireChunk.data, ⟨rest, eof⟩)) ∧
      (¬WireChunks.Fits { c with chunks } → ∃ why,
        readChunks limit fuel body ⟨chunks.flatMap WireChunk.bytes ++ (c.tail ++ rest), eof⟩
          = .error why) := by
  induction chunks generalizing body fuel with
  | nil =>
      have htail : c.trailers.length < fuel := by
        have hle := length_trailers_le c.trailers
        have hlength : c.tail.length
            = c.last.content.length + 1 + (c.trailers.flatMap fun t => t.content ++ [0x0a]).length
              + 2 := by
          simp [WireChunks.tail, crlf]
          omega
        rw [List.flatMap_nil, List.nil_append, List.length_append] at hfuel
        omega
      rw [List.flatMap_nil, List.nil_append, readChunks_tail c htail, List.flatMap_nil,
        List.append_nil, if_neg (Nat.not_lt.mpr hbody)]
      constructor
      · exact fun hfits => if_pos ⟨hfits.last, hfits.trailers⟩
      · intro hfits
        exact ⟨_, if_neg fun h => hfits ⟨by simp, h.1, h.2⟩⟩
  | cons chunk chunks ih =>
      obtain ⟨fuel, rfl⟩ := Nat.exists_eq_succ_of_ne_zero (Nat.ne_zero_of_lt hfuel)
      -- a chunk: its size line, and its data if they are within the limits
      have hshorter : (chunks.flatMap WireChunk.bytes ++ (c.tail ++ rest)).length < fuel := by
        rw [List.flatMap_cons, List.append_assoc, List.length_append] at hfuel
        have hpos : 0 < chunk.bytes.length := by simp [WireChunk.bytes]
        omega
      have hcons : WireChunks.Fits { c with chunks := chunk :: chunks } ↔
          chunk.line.content.length ≤ streamLimit ∧ WireChunks.Fits { c with chunks } := by
        constructor
        · rintro ⟨hchunks, hlast, htrailers⟩
          rw [List.forall_mem_cons] at hchunks
          exact ⟨hchunks.1, hchunks.2, hlast, htrailers⟩
        · rintro ⟨hchunk, hchunks, hlast, htrailers⟩
          exact ⟨List.forall_mem_cons.mpr ⟨hchunk, hchunks⟩, hlast, htrailers⟩
      rw [hcons, List.flatMap_cons, List.append_assoc, readChunks_chunk, List.flatMap_cons,
        ← List.append_assoc body]
      -- a size line that is too long for `readuntil`
      by_cases hlong : streamLimit < chunk.line.content.length
      · refine ⟨fun h => absurd h.1 (by omega), fun _ => ⟨_, if_pos hlong⟩⟩
      rw [if_neg hlong]
      -- a body that is too large from this chunk on
      by_cases hlarge : limit < (body ++ chunk.data).length
      · rw [if_pos hlarge, if_pos (by rw [List.length_append]; omega)]
        exact ⟨fun _ => rfl, fun _ => ⟨_, rfl⟩⟩
      · rw [if_neg hlarge]
        obtain ⟨hfits, hunfit⟩ := ih (Nat.not_lt.mp hlarge) hshorter
        exact ⟨fun h => hfits h.2, fun h => hunfit fun hf => h ⟨Nat.not_lt.mp hlong, hf⟩⟩

end CodexResetProxy
