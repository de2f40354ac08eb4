import CodexResetProxy.App
import CodexResetProxy.Mitm.Wire

/-!
The limit on request bodies, in the three loops that read one.

* `limited`: a body, or the exception that it is too large.
* `LimitLaw`, `limitLaw`: **all three loops compute `limited`**, however the body was
  cut on its way.
-/

namespace CodexResetProxy

open ByteStr StreamReader

variable {limit : ℕ} {body rest : Bytes} {eof : Bool}

/-- What a reader with a limit makes of a body. -/
def limited (limit : ℕ) (body : Bytes) : Except RequestBodyTooLarge Bytes :=
  if limit < body.length then .error (bodyTooLarge limit) else .ok body

/-- The same of a reader of a stream, with what follows the body. -/
def limitedRead (limit : ℕ) (body : Bytes) (rest : Stream) :
    Except (Stop RequestBodyTooLarge) (Bytes × Stream) :=
  ((limited limit body).mapError .raised).map (·, rest)

lemma limitedRead_eq (limit : ℕ) (body : Bytes) (rest : Stream) : limitedRead limit body rest
    = if limit < body.length then .error (.raised (bodyTooLarge limit)) else .ok (body, rest) := by
  rw [limitedRead, limited]
  split_ifs <;> rfl

/-- The limit, for one body: chunks of an ASGI stream, a declared length, and chunks
of a chunked body; and, of either framing, a complete request. -/
structure LimitLaw (limit : ℕ) (body : Bytes) : Prop where
  asgi : ∀ stream : List Bytes, stream.flatten = body →
    readLimitedBody limit stream = limited limit body
  declared : ∀ f : HeaderFields, f.chunked = false → f.contentLength = body.length →
    ∀ rest eof, readBody limit f ⟨body ++ rest, eof⟩ = limitedRead limit body ⟨rest, eof⟩
  chunked : ∀ c : WireChunks, c.Fits → (WireBody.chunked c).body = body → ∀ rest eof,
    readChunkedBody limit ⟨(WireBody.chunked c).bytes ++ rest, eof⟩
      = limitedRead limit body ⟨rest, eof⟩
  request : ∀ w : WireRequest, w.Fits → w.body.body = body → ∀ rest eof,
    readHttpRequest limit ⟨w.bytes ++ rest, eof⟩
      = (limitedRead limit body ⟨rest, eof⟩).map fun p => (some { w.request with body := p.1 }, p.2)

/-- A body of a declared length is read, or is too large. -/
lemma readBody_declared {f : HeaderFields} (hchunked : f.chunked = false)
    (hlength : f.contentLength = body.length) :
    readBody limit f ⟨body ++ rest, eof⟩ = limitedRead limit body ⟨rest, eof⟩ := by
  rw [readBody_length hchunked hlength, limitedRead_eq]

/-- A chunked body is read, or is too large. -/
lemma readChunkedBody_wire {c : WireChunks} (hfits : c.Fits) :
    readChunkedBody limit ⟨(WireBody.chunked c).bytes ++ rest, eof⟩
      = limitedRead limit (WireBody.chunked c).body ⟨rest, eof⟩ := by
  rw [readChunkedBody, WireBody.bytes, List.append_assoc, limitedRead_eq]
  exact (@readChunks_wire limit _ [] rest eof c c.chunks (Nat.zero_le _)
    (Nat.lt_succ_self _)).1 hfits

/-- A complete request is read, or its body is too large. -/
lemma readHttpRequest_wire {w : WireRequest} (hfits : w.Fits) :
    readHttpRequest limit ⟨w.bytes ++ rest, eof⟩
      = (limitedRead limit w.body.body ⟨rest, eof⟩).map
          fun p => (some { w.request with body := p.1 }, p.2) := by
  obtain ⟨hsmall, hlarge, -⟩ := readsWire limit w rest eof
  rw [limitedRead_eq]
  by_cases h : limit < w.body.body.length
  · rw [hlarge hfits h, if_pos h]
    rfl
  · rw [hsmall hfits (Nat.not_lt.mp h), if_neg h]
    rfl

/-- **One limit for all bodies.** -/
theorem limitLaw (limit : ℕ) (body : Bytes) : LimitLaw limit body := by
  constructor
  case asgi =>
    rintro stream rfl
    exact readLimitedBody_eq limit stream
  case declared => exact fun f hchunked hlength rest eof => readBody_declared hchunked hlength
  case chunked =>
    rintro c hfits rfl rest eof
    exact readChunkedBody_wire hfits
  case request =>
    rintro w hfits rfl rest eof
    exact readHttpRequest_wire hfits

end CodexResetProxy
