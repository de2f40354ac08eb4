import CodexResetProxy.Bridge.Reading
import CodexResetProxy.Library.ChunkReader
import CodexResetProxy.Mitm.Responses

/-!
What an intercepted client reads of a response whose connection breaks off anywhere.

* `readChunked_streamedBody`: a reader of the body has every chunk that was written.
* `cut_streamedBody`: **a body that breaks off** is read up to there, and not taken for
  the whole.
* `World.body`: what is written of the body of a websocket response; `readsOffWire_of_path`: **what
  its client reads**, in every run of the bridge.
-/

namespace CodexResetProxy

open Custody Transition PyStr ByteStr Http1

/-! ### Bodies -/

variable {chunks : List Bytes} {b rest : Bytes} {ends : Bool}

/-- Chunks are read, up to the next one. -/
lemma read_flatMap_writeChunk (chunks : List Bytes) (acc : Bytes) :
    (⟨.size [], acc⟩ : ChunkReader).read (chunks.flatMap writeChunk)
      = ⟨.size [], acc ++ chunks.flatten⟩ := by
  induction chunks generalizing acc with
  | nil => simp
  | cons chunk chunks ih =>
      have hchunk : (⟨.size [], acc⟩ : ChunkReader).read (writeChunk chunk)
          = ⟨.size [], acc ++ chunk⟩ := by
        rw [writeChunk]
        split_ifs with hempty
        · rw [hempty, List.append_nil]
          rfl
        · exact read_chunk (isSizeLine_format chunk.length) hempty
      rw [List.flatMap_cons, ChunkReader.read_append, hchunk, ih, List.flatten_cons,
        List.append_assoc]

/-- **A reader has every chunk** that was written, whether the body has ended or not. -/
theorem readChunked_streamedBody (chunks : List Bytes) (ends : Bool) :
    readChunked (streamedBody chunks ends)
      = ⟨if ends then .ended else .size [], chunks.flatten⟩ := by
  cases ends with
  | true => exact readChunked_of_chunkedBody (chunkedBody_streamedBody chunks)
  | false =>
      have hbody : streamedBody chunks false = chunks.flatMap writeChunk := by simp [streamedBody]
      rw [hbody, readChunked, read_flatMap_writeChunk, List.nil_append]
      rfl

/-- **A body that breaks off** is read up to there, and is not taken for the whole. -/
theorem cut_streamedBody (h : streamedBody chunks ends = b ++ rest) :
    (readChunked b).payload <+: chunks.flatten ∧
      ((readChunked b).place = .ended ↔ ends = true ∧ rest = []) := by
  have hwhole := chunkedBody_streamedBody chunks
  cases ends with
  | true =>
      rw [h] at hwhole
      have hread := prefix_payload b rest
      rw [readChunked_of_chunkedBody hwhole] at hread
      refine ⟨hread, (ended_iff hwhole).trans ?_⟩
      simp
  | false =>
      have hlast : streamedBody chunks true = b ++ (rest ++ (0x30 :: crlf ++ crlf)) := by
        rw [← List.append_assoc, ← h]
        simp [streamedBody]
      rw [hlast] at hwhole
      have hread := prefix_payload b (rest ++ (0x30 :: crlf ++ crlf))
      rw [readChunked_of_chunkedBody hwhole] at hread
      refine ⟨hread, (ended_iff hwhole).trans ?_⟩
      simp

/-! ### Responses -/

/-- Whether the generator of a request has ended well. -/
def RequestPc.endedWell : RequestPc → Bool
  | .finished none => true
  | _ => false

lemma RequestPc.endedWell_iff {pc : RequestPc} : pc.endedWell = true ↔ pc = .finished none := by
  cases pc with
  | finished raised => cases raised <;> simp [RequestPc.endedWell]
  | _ => simp [RequestPc.endedWell]

/-- What `_write_streaming_response` writes for a request until its generator is pulled
again. -/
def World.body (cfg : Config) (w : World) (r : Request) (pc : RequestPc) : Bytes :=
  streamedBody ((w.chunks cfg r).map fun chunk => chunk.data.toList) pc.endedWell

/-- Bytes as an object. -/
def toByteArray (b : Bytes) : ByteArray := ⟨b.toArray⟩

lemma joinBytes_eq (chunks : List ByteArray) :
    joinBytes chunks = toByteArray (chunks.map fun chunk => chunk.data.toList).flatten := by
  induction chunks with
  | nil => rfl
  | cons chunk chunks ih =>
      have hcons : joinBytes (chunk :: chunks) = chunk ++ joinBytes chunks := rfl
      rw [hcons, ih]
      ext1
      simp [toByteArray]

lemma toByteArray_append (a b : Bytes) :
    toByteArray (a ++ b) = toByteArray a ++ toByteArray b := by
  ext1
  simp [toByteArray]

/-- What the client of a websocket response reads when the connection breaks off, from
`messages`, which arrived one after the other on a connection.

* Of any beginning of the body it reads the first of them.
* Of what is written so far it reads all of them.
* It takes the body for complete just when it has the whole of it and the last of the messages
  is the first that completes a response. -/
structure ReadsOffWire (cfg : Config) (l : List (State × Action)) (s : State) (r : Request)
    (pc : RequestPc) (c : ℕ) (messages : List Message) : Prop where
  segment : ∃ earlier later, arrived c l = earlier ++ messages ++ later
  cut : ∀ b rest, s.world.body cfg r pc = b ++ rest →
    ReadsFirst cfg.runtime.depth messages (toByteArray (readChunked b).payload)
  written : EventStream.decode (toByteArray (readChunked (s.world.body cfg r pc)).payload)
    = some (messages.flatMap (messageEvents cfg.runtime.depth))
  complete : ∀ b rest, s.world.body cfg r pc = b ++ rest →
    ((readChunked b).place = .ended ↔ rest = [] ∧ pc = .finished none) ∧
      ((readChunked b).place = .ended → ∃ before m id, messages = before ++ [m] ∧
        completedId cfg.runtime.depth m = some id ∧
        ∀ x ∈ before, completedId cfg.runtime.depth x = none)

variable {cfg : Config} {s : State} {l : List (State × Action)} {r : Request}

/-- **What the client reads from the wire**, in every run of the bridge. -/
theorem readsOffWire_of_path (h : (bridge cfg).Path (bridge cfg).init l s) {i : ℕ} {pc : RequestPc}
    (hi : s.tasks[i]? = some (.request r pc)) :
    ∃ c messages, ReadsOffWire cfg l s r pc c messages := by
  obtain ⟨c, messages, hgiven⟩ := given_of_path h hi
  refine ⟨c, messages, hgiven.segment, fun b rest hcut => ?_, ?_, fun b rest hcut => ?_⟩
  · obtain ⟨⟨more, hmore⟩, -⟩ := cut_streamedBody hcut
    have hjoin : joinBytes (s.world.chunks cfg r)
        = toByteArray (readChunked b).payload ++ toByteArray more := by
      rw [joinBytes_eq, ← hmore, toByteArray_append]
    exact .of_chunks hgiven.chunks hjoin
  · rw [World.body, readChunked_streamedBody, ← joinBytes_eq]
    exact decode_chunks hgiven.chunks
  · have hended := (cut_streamedBody hcut).2
    rw [RequestPc.endedWell_iff, and_comm] at hended
    exact ⟨hended, fun hplace => hgiven.completed (hended.mp hplace).2⟩

/-- What is read from the wire of a response that was completed. -/
theorem readsOffWire_sampleRelease :
    ∃ s l r, (bridge sampleConfig).Path (bridge sampleConfig).init l s ∧
      s.tasks[0]? = some (.request r (.finished none)) ∧ s.world.chunks sampleConfig r ≠ [] ∧
      ∃ c messages, ReadsOffWire sampleConfig l s r (.finished none) c messages := by
  obtain ⟨s, l, r, hpath, htask, hchunks⟩ := exists_answered
  exact ⟨s, l, r, hpath, htask, hchunks, readsOffWire_of_path hpath htask⟩

end CodexResetProxy
