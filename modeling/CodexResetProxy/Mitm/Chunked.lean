import Mathlib.Data.List.TakeWhile
import Mathlib.Data.Nat.Digits.Lemmas
import CodexResetProxy.Library.StreamReader

/-!
Chunked bodies in `socks_mitm.py`: `_read_chunked_body`, and the body that
`_write_streaming_response` writes.

* `readChunkedBody`: the reader, with every exception it can raise;
  `readChunks_fuel`: it reads as long as there is something to read.
* `streamedBody`: what is written for the chunks of an iterator that ends, or
  raises.
* `ChunkedRoundTrip`, `chunkedRoundTrip`: the reader gets back what was written,
  and does not take a truncated body for a body.
-/

namespace CodexResetProxy

open ByteStr StreamReader

/-- `asyncio.start_server` makes readers with this limit. -/
def streamLimit : ℕ := 2 ^ 16

/-- `RequestBodyTooLarge`, with its text. -/
structure RequestBodyTooLarge where
  text : String
  deriving DecidableEq

/-- The text for a body that is too large. -/
def bodyTooLarge (limit : ℕ) : RequestBodyTooLarge :=
  ⟨"request body exceeds " ++ toString limit ++ " bytes"⟩

/-- A computation of `socks_mitm.py` on the stream of a client. -/
abbrev Mitm := Reading RequestBodyTooLarge

/-! ### Reading -/

/-- The inner loop of `_read_chunked_body`: trailers, up to an empty line or EOF. -/
def skipTrailers : ℕ → Mitm Unit
  | 0 => stop .waiting
  | fuel + 1 => do
      let trailer ← readline streamLimit
      if trailer ∈ [[0x0d, 0x0a], [0x0a], []] then return () else skipTrailers fuel

/-- The number that a size line declares. -/
def chunkSize (line : Bytes) : Option ℤ := pyInt 16 (strip (line.takeWhile (· ≠ 0x3b)))

/-- The loop of `_read_chunked_body`, with what it has read of the body. -/
def readChunks (maxBodyBytes : ℕ) : ℕ → Bytes → Mitm Bytes
  | 0, _ => stop .waiting
  | fuel + 1, body => do
      let line ← readline streamLimit
      match chunkSize line with
      | none => stop .value
      | some size =>
          if size = 0 then
            skipTrailers (fuel + 1)
            return body
          else
            let chunk ← readexactly size
            if maxBodyBytes < (body ++ chunk).length then
              stop (.raised (bodyTooLarge maxBodyBytes))
            else
              let _ ← readexactly 2
              readChunks maxBodyBytes fuel (body ++ chunk)

/-- `_read_chunked_body`. Every line takes a byte, or is the last. -/
def readChunkedBody (maxBodyBytes : ℕ) : Mitm Bytes := fun s =>
  readChunks maxBodyBytes (s.bytes.length + 1) [] s

/-! ### Writing -/

/-- CRLF. -/
def crlf : Bytes := [0x0d, 0x0a]

/-- The iteration of `_write_streaming_response` for one chunk. -/
def writeChunk (chunk : Bytes) : Bytes :=
  if chunk = [] then [] else format 16 chunk.length ++ crlf ++ chunk ++ crlf

/-- The body that `_write_streaming_response` writes for the chunks that its
iterator yields before it ends, or raises. -/
def streamedBody (chunks : List Bytes) (ends : Bool) : Bytes :=
  chunks.flatMap writeChunk ++ if ends then 0x30 :: crlf ++ crlf else []

/-- The chunks of an iterator that ends are read back, and nothing that follows
them is read; a body of which only some chunks were written is not read as a
body. -/
structure ChunkedRoundTrip (limit : ℕ) (chunks : List Bytes) : Prop where
  complete : ∀ rest eof, readChunkedBody limit ⟨streamedBody chunks true ++ rest, eof⟩
    = .ok (chunks.flatten, ⟨rest, eof⟩)
  truncated : ∀ written, written <+: chunks →
    readChunkedBody limit ⟨streamedBody written false, true⟩ = .error .value

/-! ### Fuel -/

variable {limit : ℕ} {body : Bytes}

lemma skipTrailers_fuel {n m : ℕ} {s : Stream} (hn : s.bytes.length < n)
    (hm : s.bytes.length < m) : skipTrailers n s = skipTrailers m s := by
  induction n generalizing m s with
  | zero => omega
  | succ n ih =>
      obtain ⟨m, rfl⟩ := Nat.exists_eq_succ_of_ne_zero (Nat.ne_zero_of_lt hm)
      rw [skipTrailers, skipTrailers]
      cases hline : (readline streamLimit : Mitm Bytes) s with
      | error why => rw [bind_of_error hline, bind_of_error hline]
      | ok p =>
          obtain ⟨line, u⟩ := p
          rw [bind_of_ok hline, bind_of_ok hline]
          split_ifs with htrailer
          · rfl
          · obtain ⟨hs, -⟩ := readline_eq_ok hline
            have hpos : 0 < line.length := List.length_pos_iff.mpr fun h => htrailer (by simp [h])
            have hlength : s.bytes.length = line.length + u.bytes.length := by
              rw [hs, List.length_append]
            exact ih (by omega) (by omega)

/-- **More fuel makes no difference**, once there is more than there are bytes. -/
theorem readChunks_fuel {n m : ℕ} {s : Stream} (hn : s.bytes.length < n)
    (hm : s.bytes.length < m) : readChunks limit n body s = readChunks limit m body s := by
  induction n generalizing m body s with
  | zero => omega
  | succ n ih =>
      obtain ⟨m, rfl⟩ := Nat.exists_eq_succ_of_ne_zero (Nat.ne_zero_of_lt hm)
      rw [readChunks, readChunks]
      cases hline : (readline streamLimit : Mitm Bytes) s with
      | error why => rw [bind_of_error hline, bind_of_error hline]
      | ok p =>
          obtain ⟨line, u⟩ := p
          rw [bind_of_ok hline, bind_of_ok hline]
          obtain ⟨hs, -⟩ := readline_eq_ok hline
          have hlength : s.bytes.length = line.length + u.bytes.length := by
            rw [hs, List.length_append]
          cases hsize : chunkSize line with
          | none => rfl
          | some size =>
              dsimp only
              split_ifs with hzero
              · have htrailers : skipTrailers (n + 1) u = skipTrailers (m + 1) u :=
                  skipTrailers_fuel (by omega) (by omega)
                show (skipTrailers (n + 1) u >>= _) = (skipTrailers (m + 1) u >>= _)
                rw [htrailers]
              · cases hchunk : (readexactly size : Mitm Bytes) u with
                | error why => rw [bind_of_error hchunk, bind_of_error hchunk]
                | ok p =>
                    obtain ⟨chunk, v⟩ := p
                    rw [bind_of_ok hchunk, bind_of_ok hchunk]
                    split_ifs with hlarge
                    · rfl
                    · cases hend : (readexactly 2 : Mitm Bytes) v with
                      | error why => rw [bind_of_error hend, bind_of_error hend]
                      | ok p =>
                          obtain ⟨end_, w⟩ := p
                          rw [bind_of_ok hend, bind_of_ok hend]
                          -- the stream is shorter by what has been read
                          obtain ⟨hu, -⟩ := readexactly_eq_ok hchunk
                          obtain ⟨hv, htwo⟩ := readexactly_eq_ok hend
                          have hlength' : u.bytes.length = chunk.length + v.bytes.length := by
                            rw [hu, List.length_append]
                          have hlength'' : v.bytes.length = end_.length + w.bytes.length := by
                            rw [hv, List.length_append]
                          exact ih (by omega) (by omega)

/-! ### Reading -/

variable {line data : Bytes} {fuel : ℕ}

/-- **One chunk** is read, unless its size line is too long or the body gets too
large. -/
theorem readChunks_sized (hline : 0x0a ∉ line)
    (hsize : chunkSize (line ++ [0x0a]) = some (data.length : ℤ)) (hne : data ≠ []) (t : Bytes)
    (eof : Bool) :
    readChunks limit (fuel + 1) body ⟨line ++ 0x0a :: (data ++ (crlf ++ t)), eof⟩
      = if streamLimit < line.length then .error .value
        else if limit < (body ++ data).length then .error (.raised (bodyTooLarge limit))
        else readChunks limit fuel (body ++ data) ⟨t, eof⟩ := by
  have hread := @readline_line RequestBodyTooLarge streamLimit line hline
    (data ++ (crlf ++ t)) eof
  have hnonzero : (data.length : ℤ) ≠ 0 := by simpa using hne
  have hend : (readexactly 2 : Mitm Bytes) ⟨crlf ++ t, eof⟩ = .ok (crlf, ⟨t, eof⟩) :=
    readexactly_append crlf t eof
  rw [readChunks]
  by_cases hlong : streamLimit < line.length
  · rw [if_pos hlong] at hread
    rw [bind_of_error hread, if_pos hlong]
  · rw [if_neg hlong] at hread
    rw [bind_of_ok hread, if_neg hlong, hsize]
    dsimp only
    rw [if_neg hnonzero, bind_of_ok (readexactly_append data _ eof)]
    by_cases hlarge : limit < (body ++ data).length
    · rw [if_pos hlarge, if_pos hlarge, stop_eq_error]
    · rw [if_neg hlarge, if_neg hlarge, bind_of_ok hend]

/-- **The last size line** is read, unless it is too long; the trailers follow. -/
theorem readChunks_last (hline : 0x0a ∉ line) (hsize : chunkSize (line ++ [0x0a]) = some 0)
    (t : Bytes) (eof : Bool) :
    readChunks limit (fuel + 1) body ⟨line ++ 0x0a :: t, eof⟩
      = if streamLimit < line.length then .error .value
        else (do skipTrailers (fuel + 1); return body : Mitm Bytes) ⟨t, eof⟩ := by
  have hread := @readline_line RequestBodyTooLarge streamLimit line hline t eof
  rw [readChunks]
  by_cases hlong : streamLimit < line.length
  · rw [if_pos hlong] at hread
    rw [bind_of_error hread, if_pos hlong]
  · rw [if_neg hlong] at hread
    rw [bind_of_ok hread, if_neg hlong, hsize]
    dsimp only
    rw [if_pos rfl]

/-- The line end after the trailers is read. -/
lemma skipTrailers_crlf (t : Bytes) (eof : Bool) :
    skipTrailers (fuel + 1) ⟨crlf ++ t, eof⟩ = .ok ((), ⟨t, eof⟩) := by
  have hend : (readline streamLimit : Mitm Bytes) ⟨crlf ++ t, eof⟩ = .ok (crlf, ⟨t, eof⟩) :=
    @readline_append RequestBodyTooLarge streamLimit [0x0d] (by decide) (by decide) t eof
  rw [skipTrailers, bind_of_ok hend, if_pos (by decide)]
  rfl

/-! ### The round trip -/

/-- The line end is white space. -/
lemma of_mem_crlf {c : UInt8} (hc : c ∈ crlf) : isSpace c = true ∧ c ≠ 0x3b := by
  rcases List.mem_pair.mp hc with rfl | rfl <;> exact ⟨rfl, by decide⟩

/-- A size line is read as the size. -/
lemma chunkSize_format (n : ℕ) : chunkSize (format 16 n ++ crlf) = some (n : ℤ) := by
  have hnosep : ∀ c ∈ format 16 n ++ crlf, (c ≠ 0x3b : Bool) := by
    intro c hc
    rcases List.mem_append.mp hc with hc | hc
    · obtain ⟨d, hd, rfl⟩ := mem_format (by decide) le_rfl hc
      simpa using (digitByte_spec d hd).2.2.2.2.2.2.2.1
    · exact decide_eq_true (of_mem_crlf hc).2
  have hspace : ∀ c ∈ format 16 n, ¬isSpace c := by
    intro c hc
    obtain ⟨d, hd, rfl⟩ := mem_format (by decide) le_rfl hc
    exact (digitByte_spec d hd).2.2.1
  rw [chunkSize, List.takeWhile_eq_self_iff.mpr hnosep,
    strip_append format_ne_nil hspace fun c hc => (of_mem_crlf hc).1]
  simpa using @pyInt_format n [] (by simp)

/-- A size line fits into the buffer of the reader. -/
lemma length_format_lt {n : ℕ} (hn : n ≤ maxsize) : (format 16 n).length ≤ 16 := by
  rw [format]
  split_ifs
  · simp
  · rw [List.length_map, List.length_reverse, Nat.digits_length_le_iff (by decide)]
    exact hn.trans_lt (by decide)

/-- A size line has one line feed. -/
lemma notMem_format (n : ℕ) : 0x0a ∉ format 16 n ++ [0x0d] := by
  intro hmem
  rcases List.mem_append.mp hmem with hmem | hmem
  · obtain ⟨d, hd, h⟩ := mem_format (by decide) le_rfl hmem
    exact (digitByte_spec d hd).2.2.2.2.2.2.2.2 h.symm
  · exact absurd hmem (by decide)

/-- **One chunk** is read back. -/
lemma readChunks_writeChunk {chunk : Bytes} (hne : chunk ≠ []) (hbounded : chunk.length ≤ maxsize)
    (hlimit : (body ++ chunk).length ≤ limit) (fuel : ℕ) (t : Bytes) (eof : Bool) :
    readChunks limit (fuel + 1) body ⟨writeChunk chunk ++ t, eof⟩
      = readChunks limit fuel (body ++ chunk) ⟨t, eof⟩ := by
  have hstream : writeChunk chunk ++ t
      = format 16 chunk.length ++ [0x0d] ++ 0x0a :: (chunk ++ (crlf ++ t)) := by
    simp [writeChunk, hne, crlf]
  have hsize : chunkSize (format 16 chunk.length ++ [0x0d] ++ [0x0a])
      = some (chunk.length : ℤ) := by
    rw [List.append_assoc]
    exact chunkSize_format chunk.length
  have hshort : ¬streamLimit < (format 16 chunk.length ++ [0x0d]).length := by
    have hdigits := length_format_lt hbounded
    rw [List.length_append, List.length_singleton, streamLimit]
    omega
  rw [hstream, readChunks_sized (notMem_format _) hsize hne, if_neg hshort, if_neg (by omega)]

/-- The chunks are read back, one after the other. -/
lemma readChunks_flatMap {chunks : List Bytes} (hbounded : ∀ c ∈ chunks, c.length ≤ maxsize)
    (hlimit : (body ++ chunks.flatten).length ≤ limit) (t : Bytes) (eof : Bool) {fuel : ℕ}
    (hfuel : (chunks.flatMap writeChunk ++ t).length < fuel) :
    readChunks limit fuel body ⟨chunks.flatMap writeChunk ++ t, eof⟩
      = readChunks limit (t.length + 1) (body ++ chunks.flatten) ⟨t, eof⟩ := by
  induction chunks generalizing body fuel with
  | nil =>
      rw [List.flatMap_nil, List.nil_append] at hfuel
      rw [List.flatMap_nil, List.nil_append, List.flatten_nil, List.append_nil]
      exact readChunks_fuel hfuel (Nat.lt_succ_self _)
  | cons chunk chunks ih =>
      rw [List.forall_mem_cons] at hbounded
      rw [List.flatten_cons, ← List.append_assoc] at hlimit ⊢
      rw [List.flatMap_cons, List.append_assoc] at hfuel ⊢
      by_cases hne : chunk = []
      · subst hne
        rw [List.append_nil] at hlimit ⊢
        exact ih hbounded.2 hlimit hfuel
      · obtain ⟨fuel, rfl⟩ := Nat.exists_eq_succ_of_ne_zero (Nat.ne_zero_of_lt hfuel)
        have hchunk : (body ++ chunk).length ≤ limit := by
          rw [List.length_append] at hlimit
          omega
        have hshorter : (chunks.flatMap writeChunk ++ t).length < fuel := by
          have hpos : 0 < (writeChunk chunk).length := by
            rw [writeChunk, if_neg hne]
            simp [crlf]
          rw [List.length_append] at hfuel
          omega
        rw [readChunks_writeChunk hne hbounded.1 hchunk]
        exact ih hbounded.2 hlimit hshorter

/-- The end of a body is read. -/
lemma readChunks_end (rest : Bytes) (eof : Bool) (fuel : ℕ) :
    readChunks limit (fuel + 1) body ⟨0x30 :: crlf ++ crlf ++ rest, eof⟩
      = .ok (body, ⟨rest, eof⟩) := by
  have hlast := @readChunks_last limit body [0x30, 0x0d] fuel (by decide) (by decide)
    (crlf ++ rest) eof
  rw [if_neg (by decide), bind_of_ok (skipTrailers_crlf rest eof)] at hlast
  exact hlast

/-- **Chunked bodies**: what is written for an iterator that ends is read back, and
what is written for one that raises is not. -/
theorem chunkedRoundTrip (limit : ℕ) (chunks : List PyBytes)
    (hlimit : (chunks.map PyBytes.bytes).flatten.length ≤ limit) :
    ChunkedRoundTrip limit (chunks.map PyBytes.bytes) := by
  have hbounded : ∀ c ∈ chunks.map PyBytes.bytes, c.length ≤ maxsize := by
    intro c hc
    obtain ⟨chunk, -, rfl⟩ := List.mem_map.mp hc
    exact chunk.bounded
  constructor
  case complete =>
    intro rest eof
    rw [readChunkedBody, streamedBody, if_pos rfl, List.append_assoc]
    rw [readChunks_flatMap hbounded (by simpa using hlimit) _ eof (Nat.lt_succ_self _)]
    exact readChunks_end rest eof _
  case truncated =>
    intro written hwritten
    obtain ⟨others, hothers⟩ := hwritten
    have hle : written.flatten.length ≤ limit := by
      rw [← hothers, List.flatten_append, List.length_append] at hlimit
      omega
    have hstream : streamedBody written false = written.flatMap writeChunk ++ [] := rfl
    rw [readChunkedBody, hstream,
      readChunks_flatMap (fun c hc => hbounded c (hothers ▸ List.mem_append_left _ hc))
        (by simpa using hle) [] true (Nat.lt_succ_self _), readChunks, bind_of_ok readline_eof]
    rfl

/-- A chunk that looks like the end of a body, and an empty one. -/
theorem chunkedRoundTrip_terminator :
    ChunkedRoundTrip 5 ([⟨0x30 :: crlf ++ crlf, by decide⟩, ⟨[], by decide⟩].map PyBytes.bytes) :=
  chunkedRoundTrip 5 _ (by decide)

end CodexResetProxy
