import CodexResetProxy.Library.Http1

/-!
A reader of chunked bodies that takes one byte at a time, and gives the payload as it comes.

* `ChunkReader`: how far a reader has come, and the payload so far; `readChunked`.
* `prefix_payload`: what was read stays.
* `readChunked_of_chunkedBody`: **a chunked body is read** with its payload, and
  `ended_iff`: no part of it is taken for the whole.
-/

namespace Http1

open ByteStr

/-! ### The reader -/

/-- Where a reader is: in a size line, with what it has of it; in the data of a chunk, with one
byte more than `left` to come; before the CR and the LF behind it; in the trailer section, with
what it has of a line; behind the body.  It is lost after anything else. -/
inductive ChunkPlace where
  | size (line : Bytes)
  | data (left : ℕ)
  | dataCr
  | dataLf
  | trailer (line : Bytes)
  | ended
  | lost
  deriving DecidableEq

/-- A reader, with the payload that it has read. -/
structure ChunkReader where
  place : ChunkPlace
  payload : Bytes
  deriving DecidableEq

/-- The size in a line that ends with a CR: what follows the digits is not looked at. -/
def lineSize (line : Bytes) : Option ℕ :=
  let digits := line.takeWhile (digitValue · < 16)
  if line.getLast? = some 0x0d ∧ digits ≠ [] then some (ofDigits 16 (digits.map digitValue))
  else none

/-- The place behind a size line. -/
def afterSize : Option ℕ → ChunkPlace
  | none => .lost
  | some 0 => .trailer []
  | some (n + 1) => .data n

/-- The place behind a byte. -/
def ChunkPlace.next (c : UInt8) : ChunkPlace → ChunkPlace
  | .size line => if c = 0x0a then afterSize (lineSize line) else .size (line ++ [c])
  | .data 0 => .dataCr
  | .data (n + 1) => .data n
  | .dataCr => if c = 0x0d then .dataLf else .lost
  | .dataLf => if c = 0x0a then .size [] else .lost
  | .trailer line =>
      if c ≠ 0x0a then .trailer (line ++ [c])
      else if line = [0x0d] then .ended
      else .trailer []
  | .ended => .lost
  | .lost => .lost

/-- What a byte adds to the payload. -/
def ChunkPlace.gives (c : UInt8) : ChunkPlace → Bytes
  | .data _ => [c]
  | _ => []

/-- A byte is read. -/
def ChunkReader.step (r : ChunkReader) (c : UInt8) : ChunkReader :=
  ⟨r.place.next c, r.payload ++ r.place.gives c⟩

/-- Bytes are read. -/
def ChunkReader.read (r : ChunkReader) (s : Bytes) : ChunkReader := s.foldl ChunkReader.step r

/-- Bytes are read from the start of a body. -/
def readChunked (s : Bytes) : ChunkReader := (⟨.size [], []⟩ : ChunkReader).read s

variable {r : ChunkReader} {s t line payload acc : Bytes}

@[simp] lemma ChunkReader.read_nil : r.read [] = r := rfl

@[simp] lemma ChunkReader.read_cons (c : UInt8) : r.read (c :: s) = (r.step c).read s := rfl

lemma ChunkReader.read_append : r.read (s ++ t) = (r.read s).read t := List.foldl_append

/-- **What was read stays**, whatever comes. -/
theorem prefix_read (r : ChunkReader) (s : Bytes) : r.payload <+: (r.read s).payload := by
  induction s generalizing r with
  | nil => exact List.prefix_rfl
  | cons c s ih => exact (List.prefix_append _ _).trans (ih (r.step c))

lemma prefix_payload (s t : Bytes) :
    (readChunked s).payload <+: (readChunked (s ++ t)).payload := by
  rw [readChunked, readChunked, ChunkReader.read_append]
  exact prefix_read _ t

/-! ### The parts of a body -/

lemma step_size (c : UInt8) : (⟨.size line, acc⟩ : ChunkReader).step c
    = ⟨if c = 0x0a then afterSize (lineSize line) else .size (line ++ [c]), acc⟩ :=
  congrArg (ChunkReader.mk _) (List.append_nil acc)

lemma step_trailer (c : UInt8) : (⟨.trailer line, acc⟩ : ChunkReader).step c
    = ⟨if c ≠ 0x0a then .trailer (line ++ [c]) else if line = [0x0d] then .ended else .trailer [],
        acc⟩ :=
  congrArg (ChunkReader.mk _) (List.append_nil acc)

/-- A size line is read up to its line end. -/
lemma read_size (hs : 0x0a ∉ s) :
    (⟨.size line, acc⟩ : ChunkReader).read s = ⟨.size (line ++ s), acc⟩ := by
  induction s generalizing line with
  | nil => rw [ChunkReader.read_nil, List.append_nil]
  | cons c s ih =>
      rw [List.mem_cons, not_or] at hs
      have hstep : (⟨.size line, acc⟩ : ChunkReader).step c = ⟨.size (line ++ [c]), acc⟩ := by
        rw [step_size, if_neg (Ne.symm hs.1)]
      rw [ChunkReader.read_cons, hstep, ih hs.2, List.append_assoc, List.singleton_append]

/-- A trailer line is read up to its line end. -/
lemma read_trailer (hs : 0x0a ∉ s) :
    (⟨.trailer line, acc⟩ : ChunkReader).read s = ⟨.trailer (line ++ s), acc⟩ := by
  induction s generalizing line with
  | nil => rw [ChunkReader.read_nil, List.append_nil]
  | cons c s ih =>
      rw [List.mem_cons, not_or] at hs
      have hstep : (⟨.trailer line, acc⟩ : ChunkReader).step c = ⟨.trailer (line ++ [c]), acc⟩ := by
        rw [step_trailer, if_pos (Ne.symm hs.1)]
      rw [ChunkReader.read_cons, hstep, ih hs.2, List.append_assoc, List.singleton_append]

/-- The data of a chunk is read. -/
lemma read_data (hs : s ≠ []) :
    (⟨.data (s.length - 1), acc⟩ : ChunkReader).read s = ⟨.dataCr, acc ++ s⟩ := by
  induction s generalizing acc with
  | nil => exact absurd rfl hs
  | cons c s ih =>
      cases s with
      | nil => rfl
      | cons d s =>
          have hstep : (⟨.data ((c :: d :: s).length - 1), acc⟩ : ChunkReader).step c
              = ⟨.data ((d :: s).length - 1), acc ++ [c]⟩ := rfl
          rw [ChunkReader.read_cons, hstep, ih (List.cons_ne_nil d s), List.append_assoc,
            List.singleton_append]

/-- The digits of a size line end where its extension starts. -/
lemma lineSize_of_isSizeLine {size : ℕ} (h : IsSizeLine line size) :
    lineSize (line ++ [0x0d]) = some size := by
  obtain ⟨digits, ext, hne, hhex, hext, hsize, rfl⟩ := h
  have hstop : (ext ++ [0x0d]).takeWhile (digitValue · < 16) = [] := by
    rcases chunkExt_start hext with rfl | ⟨b, t, hb, rfl⟩
    · decide
    · cases b with
      | nil => exact List.takeWhile_cons_of_neg (by decide)
      | cons c b =>
          refine List.takeWhile_cons_of_neg ?_
          rcases hb c List.mem_cons_self with rfl | rfl <;> decide
  have hdigits : (digits ++ ext ++ [0x0d]).takeWhile (digitValue · < 16) = digits := by
    rw [List.append_assoc, List.takeWhile_append_of_pos fun c hc => decide_eq_true (hhex c hc),
      hstop, List.append_nil]
  rw [lineSize, hdigits, if_pos ⟨List.getLast?_concat, hne⟩, hsize]

/-- A size line is read with its line end. -/
lemma read_sizeLine {size : ℕ} (h : IsSizeLine line size) :
    (⟨.size [], acc⟩ : ChunkReader).read (line ++ eol) = ⟨afterSize (some size), acc⟩ := by
  have hlf : 0x0a ∉ line ++ [0x0d] := by simp [linefeed_notMem_sizeLine h]
  have hsplit : line ++ eol = line ++ [0x0d] ++ [0x0a] := by simp [eol]
  rw [hsplit, ChunkReader.read_append, read_size hlf, List.nil_append, ChunkReader.read_cons,
    ChunkReader.read_nil, step_size, if_pos rfl, lineSize_of_isSizeLine h]

/-- **A chunk is read**, up to the next one. -/
theorem read_chunk {data : Bytes} (h : IsSizeLine line data.length) (hne : data ≠ []) :
    (⟨.size [], acc⟩ : ChunkReader).read (line ++ eol ++ data ++ eol)
      = ⟨.size [], acc ++ data⟩ := by
  have hplace : afterSize (some data.length) = .data (data.length - 1) := by
    cases data with
    | nil => exact absurd rfl hne
    | cons c data => rfl
  rw [ChunkReader.read_append, ChunkReader.read_append, read_sizeLine h, hplace, read_data hne]
  simp [eol, ChunkReader.step, ChunkPlace.next, ChunkPlace.gives]

/-- The trailer section is read to its end. -/
lemma read_trailerSection (h : TrailerSection s) :
    (⟨.trailer [], acc⟩ : ChunkReader).read s = ⟨.ended, acc⟩ := by
  induction h with
  | nil => simp [eol, ChunkReader.step, ChunkPlace.next, ChunkPlace.gives]
  | @cons line name value s hline _ ih =>
      obtain ⟨hlf, hcolon⟩ := linefeed_notMem_fieldLine hline
      have hcr : 0x0a ∉ line ++ [0x0d] := by simp [hlf]
      have hnot : line ++ [0x0d] ≠ [0x0d] := by
        intro heq
        rw [List.append_cancel_right (heq.trans (List.nil_append [0x0d]).symm)] at hcolon
        exact List.not_mem_nil hcolon
      have hsplit : line ++ eol ++ s = line ++ [0x0d] ++ 0x0a :: s := by simp [eol]
      have hstep : (⟨.trailer (line ++ [0x0d]), acc⟩ : ChunkReader).step 0x0a
          = ⟨.trailer [], acc⟩ := by
        rw [step_trailer, if_neg (not_not.mpr rfl), if_neg hnot]
      rw [hsplit, ChunkReader.read_append, read_trailer hcr, List.nil_append,
        ChunkReader.read_cons, hstep, ih]

/-! ### The body -/

lemma read_of_chunkedBody (h : ChunkedBody s payload) :
    (⟨.size [], acc⟩ : ChunkReader).read s = ⟨.ended, acc ++ payload⟩ := by
  induction h generalizing acc with
  | last hline htrailer =>
      rw [ChunkReader.read_append, read_sizeLine hline, List.append_nil]
      exact read_trailerSection htrailer
  | chunk hline hne _ ih =>
      rw [ChunkReader.read_append, read_chunk hline hne, ih, List.append_assoc]

/-- **A chunked body is read**, with its payload. -/
theorem readChunked_of_chunkedBody (h : ChunkedBody s payload) :
    readChunked s = ⟨.ended, payload⟩ := by
  rw [readChunked, read_of_chunkedBody h, List.nil_append]

/-- A reader that is lost stays so. -/
lemma place_read_of_lost (h : r.place = .lost) (s : Bytes) : (r.read s).place = .lost := by
  induction s generalizing r with
  | nil => exact h
  | cons c s ih =>
      refine ih ?_
      rw [ChunkReader.step, h]
      rfl

/-- **Only the whole body is taken for it.** -/
theorem ended_iff (h : ChunkedBody (s ++ t) payload) : (readChunked s).place = .ended ↔ t = [] := by
  have hwhole := readChunked_of_chunkedBody h
  rw [readChunked, ChunkReader.read_append, ← readChunked] at hwhole
  constructor
  · intro hended
    cases t with
    | nil => rfl
    | cons c t =>
        have hlost : ((readChunked s).step c).place = .lost := by
          rw [ChunkReader.step, hended]
          rfl
        rw [ChunkReader.read_cons] at hwhole
        have hstays := place_read_of_lost hlost t
        rw [hwhole] at hstays
        cases hstays
  · rintro rfl
    rw [ChunkReader.read_nil] at hwhole
    rw [hwhole]

end Http1
