import CodexResetProxy.Mitm.Reader

/-!
How much of a body `_read_http_request` takes before it gives up.

* `takeRequest`: the reader, with the number of bytes of the body that it took, those
  of a chunk or body that broke off included; `takeRequest_fst`: it is
  `readHttpRequest` otherwise.
* `chunkedRest`, `sentPayload`: what the client sends in chunks.
* `takeRequest_le_iff`: **when no more is taken than the limit.**  A declared length is
  checked before it is read, and the size of a chunk is not.
-/

namespace CodexResetProxy

open PyStr ByteStr StreamReader

/-! ### Counting -/

/-- What a computation gives, and the number of bytes of the body that it took. -/
abbrev Counted (α : Type) := Except (Stop RequestBodyTooLarge) (α × Stream) × ℕ

/-- The number of bytes that `readexactly` gets, whether or not there are enough. -/
def taken (n : ℤ) (s : Stream) : ℕ := min n.toNat s.bytes.length

/-- The loop of `_read_chunked_body`, with what it took. -/
def takeChunks (maxBodyBytes : ℕ) : ℕ → Bytes → Stream → Counted Bytes
  | 0, body, _ => (.error .waiting, body.length)
  | fuel + 1, body, s =>
      match (readline streamLimit : Mitm Bytes) s with
      | .error why => (.error why, body.length)
      | .ok (line, t) =>
          match chunkSize line with
          | none => (.error .value, body.length)
          | some size =>
              if size = 0 then
                ((do skipTrailers (fuel + 1); return body : Mitm Bytes) t, body.length)
              else
                match (readexactly size : Mitm Bytes) t with
                | .error why => (.error why, body.length + taken size t)
                | .ok (chunk, u) =>
                    if maxBodyBytes < (body ++ chunk).length then
                      (.error (.raised (bodyTooLarge maxBodyBytes)), (body ++ chunk).length)
                    else
                      match (readexactly 2 : Mitm Bytes) u with
                      | .error why => (.error why, (body ++ chunk).length)
                      | .ok (_, v) => takeChunks maxBodyBytes fuel (body ++ chunk) v

/-- The body that the headers announce, with what is taken of it. -/
def takeBody (maxBodyBytes : ℕ) (f : HeaderFields) (s : Stream) : Counted Bytes :=
  if f.chunked then takeChunks maxBodyBytes (s.bytes.length + 1) [] s
  else if maxBodyBytes < f.contentLength then (.error (.raised (bodyTooLarge maxBodyBytes)), 0)
  else if f.contentLength = 0 then (.ok ([], s), 0)
  else ((readexactly f.contentLength : Mitm Bytes) s, taken f.contentLength s)

/-- The rest of a request whose header block has been read, with what is taken of its
body. -/
def takeAfterBlock (maxBodyBytes : ℕ) (block : Bytes) (s : Stream) : Counted HttpRequest :=
  if maxHttpHeaderBytes < block.length then (.error (.raised headersTooLarge), 0)
  else
    match requestLineParts ((headerLines block).headD []) with
    | none => (.error .value, 0)
    | some (method, target, version) =>
        match readHeaderLines (headerLines block).tail with
        | none => (.error .value, 0)
        | some f =>
            let (read, n) := takeBody maxBodyBytes f s
            (read.map fun p =>
              ({ method, target, version, headers := f.headers, body := p.1 }, p.2),
              n)

/-- `_read_http_request`, with what it takes of a body. -/
def takeRequest (maxBodyBytes : ℕ) (s : Stream) : Counted (Option HttpRequest) :=
  match readHeaderBlock s with
  | .error why => (.error why, 0)
  | .ok (none, t) => (.ok (none, t), 0)
  | .ok (some block, t) =>
      let (read, n) := takeAfterBlock maxBodyBytes block t
      (read.map fun p => (some p.1, p.2), n)

/-! ### What the client sends -/

/-- The bytes that come in chunks, up to where they break off. -/
def sentPayload : ℕ → Stream → ℕ
  | 0, _ => 0
  | fuel + 1, s =>
      match (readline streamLimit : Mitm Bytes) s with
      | .error _ => 0
      | .ok (line, t) =>
          match chunkSize line with
          | none => 0
          | some size =>
              if size = 0 then 0
              else
                match (readexactly size : Mitm Bytes) t with
                | .error _ => taken size t
                | .ok (chunk, u) =>
                    chunk.length +
                      match (readexactly 2 : Mitm Bytes) u with
                      | .error _ => 0
                      | .ok (_, v) => sentPayload fuel v

/-- What follows the header block of a request that announces chunks. -/
def chunkedRest (s : Stream) : Option Stream :=
  match readHeaderBlock s with
  | .ok (some block, t) =>
      if maxHttpHeaderBytes < block.length then none
      else
        match requestLineParts ((headerLines block).headD []),
            readHeaderLines (headerLines block).tail with
        | some _, some f => if f.chunked then some t else none
        | _, _ => none
  | _ => none

/-! ### The reader -/

variable {limit fuel : ℕ} {body block : Bytes} {s t : Stream} {f : HeaderFields}

lemma takeChunks_fst : (takeChunks limit fuel body s).1 = readChunks limit fuel body s := by
  induction fuel generalizing body s with
  | zero => rfl
  | succ fuel ih =>
      rw [takeChunks, readChunks]
      cases hline : (readline streamLimit : Mitm Bytes) s with
      | error why => rw [bind_of_error hline]
      | ok p =>
          obtain ⟨line, t⟩ := p
          rw [bind_of_ok hline]
          dsimp only
          cases chunkSize line with
          | none => rfl
          | some size =>
              dsimp only
              split_ifs with hzero
              · rfl
              cases hchunk : (readexactly size : Mitm Bytes) t with
              | error why => rw [bind_of_error hchunk]
              | ok p =>
                  obtain ⟨chunk, u⟩ := p
                  rw [bind_of_ok hchunk]
                  dsimp only
                  split_ifs with hlarge
                  · rfl
                  cases hend : (readexactly 2 : Mitm Bytes) u with
                  | error why => rw [bind_of_error hend]
                  | ok p =>
                      rw [bind_of_ok hend]
                      exact ih

lemma takeBody_fst : (takeBody limit f s).1 = readBody limit f s := by
  rw [takeBody, readBody]
  split_ifs
  · exact takeChunks_fst
  · rfl
  · rfl
  · rfl

lemma takeAfterBlock_fst :
    (takeAfterBlock limit block s).1 = readAfterBlock limit block s := by
  rw [takeAfterBlock, readAfterBlock]
  split_ifs
  · rfl
  cases requestLineParts ((headerLines block).headD []) with
  | none => rfl
  | some parts =>
      cases readHeaderLines (headerLines block).tail with
      | none => rfl
      | some f =>
          have hbody := @takeBody_fst limit s f
          dsimp only
          cases hread : readBody limit f s with
          | error why =>
              rw [bind_of_error hread, hbody, hread]
              rfl
          | ok p =>
              rw [bind_of_ok hread, hbody, hread]
              rfl

/-- **The reader that counts** reads what `_read_http_request` reads. -/
theorem takeRequest_fst : (takeRequest limit s).1 = readHttpRequest limit s := by
  rw [takeRequest, readHttpRequest]
  cases hblock : readHeaderBlock s with
  | error why => rw [bind_of_error hblock]
  | ok p =>
      obtain ⟨block?, t⟩ := p
      rw [bind_of_ok hblock]
      cases block? with
      | none => rfl
      | some block =>
          have hafter := @takeAfterBlock_fst limit block t
          dsimp only
          rw [map_eq_pure_bind]
          cases hread : readAfterBlock limit block t with
          | error why =>
              rw [bind_of_error hread, hafter, hread]
              rfl
          | ok p =>
              rw [bind_of_ok hread, hafter, hread]
              rfl

/-! ### What is taken -/

/-- **One limit for the chunks**: as much is taken as is sent, unless that gets too
much. -/
theorem takeChunks_le_iff (hbody : body.length ≤ limit) :
    (takeChunks limit fuel body s).2 ≤ limit ↔ body.length + sentPayload fuel s ≤ limit := by
  induction fuel generalizing body s with
  | zero => exact Iff.rfl
  | succ fuel ih =>
      rw [takeChunks, sentPayload]
      cases (readline streamLimit : Mitm Bytes) s with
      | error why => exact Iff.rfl
      | ok p =>
          obtain ⟨line, t⟩ := p
          dsimp only
          cases chunkSize line with
          | none => exact Iff.rfl
          | some size =>
              dsimp only
              split_ifs with hzero
              · exact Iff.rfl
              cases (readexactly size : Mitm Bytes) t with
              | error why => exact Iff.rfl
              | ok p =>
                  obtain ⟨chunk, u⟩ := p
                  dsimp only
                  rw [← Nat.add_assoc, ← List.length_append]
                  -- a chunk that exceeds the limit has been read before it is found to
                  by_cases hlarge : limit < (body ++ chunk).length
                  · rw [if_pos hlarge]
                    dsimp only
                    omega
                  rw [if_neg hlarge]
                  cases (readexactly 2 : Mitm Bytes) u with
                  | error why => exact Iff.rfl
                  | ok p => exact ih (Nat.not_lt.mp hlarge)

/-- A declared length is within the limit when it is read. -/
lemma takeBody_le_iff : (takeBody limit f s).2 ≤ limit ↔
    (f.chunked = true → sentPayload (s.bytes.length + 1) s ≤ limit) := by
  rw [takeBody]
  by_cases hchunked : f.chunked = true
  · rw [if_pos hchunked, forall_prop_of_true hchunked]
    simpa using @takeChunks_le_iff limit (s.bytes.length + 1) [] s (Nat.zero_le limit)
  · rw [if_neg hchunked]
    refine iff_of_true ?_ fun h => absurd h hchunked
    split_ifs with hlarge hzero
    · exact Nat.zero_le limit
    · exact Nat.zero_le limit
    · have hle : taken f.contentLength s ≤ f.contentLength.toNat := Nat.min_le_left _ _
      dsimp only
      omega

/-- **When no more is taken than the limit.** -/
theorem takeRequest_le_iff : (takeRequest limit s).2 ≤ limit ↔
    ∀ t ∈ chunkedRest s, sentPayload (t.bytes.length + 1) t ≤ limit := by
  rw [takeRequest, chunkedRest]
  cases readHeaderBlock s with
  | error why => simp
  | ok p =>
      obtain ⟨block?, t⟩ := p
      cases block? with
      | none => simp
      | some block =>
          dsimp only
          rw [takeAfterBlock]
          split_ifs with hlarge
          · simp
          cases requestLineParts ((headerLines block).headD []) with
          | none => simp
          | some parts =>
              cases readHeaderLines (headerLines block).tail with
              | none => simp
              | some f =>
                  dsimp only
                  rw [takeBody_le_iff]
                  by_cases hchunked : f.chunked = true <;> simp [hchunked]

/-- A request with a chunk of five bytes, which goes on. -/
def oversizedChunk : Bytes :=
  ascii "POST /a HTTP/1.1\r\ntransfer-encoding: chunked\r\n\r\n5\r\nabcde\r\n"

/-- The chunk is taken before the request is refused. -/
theorem not_takeRequest_le_chunk :
    readHttpRequest 2 ⟨oversizedChunk, false⟩ = .error (.raised (bodyTooLarge 2)) ∧
      ¬(takeRequest 2 ⟨oversizedChunk, false⟩).2 ≤ 2 := by
  decide +kernel

end CodexResetProxy
