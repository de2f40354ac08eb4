import CodexResetProxy.Library.PyStr

/-!
The parser of `text/event-stream`, as the WHATWG standard has it.

A stream is split into lines at CR LF, CR and LF only. A line `name: value`
appends to the data buffer (`data`) or replaces the event name (`event`); other
fields and comments dispatch nothing and are skipped; a blank line dispatches an
event, unless the data buffer is empty, and resets both buffers. An event that
the stream does not finish is not dispatched.

* `run`: what a list of lines dispatches, and the buffers after it; it composes
  over `++` (`run_append`).
* `run_quiet_iff`: lines dispatch nothing and leave no data just when none of
  them is a data line.
* `events_flatten`: a stream of blocks that each leave the buffers empty
  dispatches what its blocks dispatch, one after the other.
* `read`: what an incremental parser has read of a stream; `prefix_read`: what follows
  only adds to it.
-/

namespace EventStream

open PyStr

/-- A dispatched event. -/
structure Event where
  name : PyStr
  data : PyStr
  deriving DecidableEq

/-- The event name and data read since the last blank line. -/
structure Buffers where
  name : PyStr
  data : PyStr
  deriving DecidableEq

/-- Empty buffers. -/
def Buffers.reset : Buffers := ⟨[], []⟩

/-- The field name of a line and its value, of which one leading blank is
dropped. A line without a colon is a field name, and a comment has the empty
one. -/
def field (line : PyStr) : PyStr × PyStr :=
  match line.dropWhile (· ≠ 0x3a) with
  | [] => (line, [])
  | _ :: value => (line.takeWhile (· ≠ 0x3a), if value.head? = some 0x20 then value.tail else value)

/-- What a blank line dispatches: nothing without data, else an event, named
`message` unless a name was given, without the final LF of the data. -/
def dispatch (b : Buffers) : List Event :=
  if b.data = [] then []
  else [⟨if b.name = [] then py "message" else b.name, b.data.dropLast⟩]

/-- The buffers after a line that is not blank. -/
def setField (b : Buffers) (line : PyStr) : Buffers :=
  if (field line).1 = py "event" then { b with name := (field line).2 }
  else if (field line).1 = py "data" then { b with data := b.data ++ (field line).2 ++ [0x0a] }
  else b

/-- The events that lines dispatch, and the buffers after them. -/
def run (b : Buffers) : List PyStr → List Event × Buffers
  | [] => ([], b)
  | line :: lines =>
      if line = [] then (dispatch b ++ (run .reset lines).1, (run .reset lines).2)
      else run (setField b line) lines

/-- The events of a decoded stream; an initial byte order mark is dropped. -/
def parse (s : PyStr) : List Event :=
  (run .reset (breakLines isEol [] (if s.head? = some 0xfeff then s.tail else s)).1).1

/-- The events of a stream of UTF-8. -/
def decode (b : ByteArray) : Option (List Event) := (decodeUtf8 b).map parse

/-- The events that an incremental parser has read of a stream. -/
def read (b : ByteArray) : List Event := parse (decodeSoFar b)

example : parse (py "event: a\ndata: 1\ndata:2\n\n:x\ndata\n\ndata: 3")
    = [⟨py "a", py "1\n2"⟩, ⟨py "message", []⟩] := by decide

lemma run_append (b : Buffers) (ls ms : List PyStr) :
    run b (ls ++ ms) = ((run b ls).1 ++ (run (run b ls).2 ms).1, (run (run b ls).2 ms).2) := by
  induction ls generalizing b with
  | nil => rfl
  | cons l ls ih =>
      rw [List.cons_append, run, run]
      split_ifs
      · rw [ih]
        simp
      · exact ih _

/-! ### Data lines -/

/-- A line that appends to the data buffer. -/
def isData (line : PyStr) : Bool := line ≠ [] ∧ (field line).1 = py "data"

lemma setField_data_of_not {b : Buffers} {line : PyStr} (hl : line ≠ []) (h : ¬ isData line) :
    (setField b line).data = b.data := by
  have hf : ¬ (field line).1 = py "data" := fun he => h (by simp [isData, hl, he])
  unfold setField
  split_ifs
  · rfl
  · rfl

lemma setField_data_ne_nil {b : Buffers} {line : PyStr} (h : isData line) :
    (setField b line).data ≠ [] := by
  have hf : (field line).1 = py "data" := by
    have : line ≠ [] ∧ (field line).1 = py "data" := by simpa [isData] using h
    exact this.2
  have hne : ¬ py "data" = py "event" := by decide
  rw [setField, if_neg (by rw [hf]; exact hne), if_pos hf]
  simp

/-- Data once read is either dispatched or still in the buffer. -/
lemma run_of_data {b : Buffers} (hb : b.data ≠ []) (ls : List PyStr) :
    (run b ls).1 ≠ [] ∨ (run b ls).2.data ≠ [] := by
  induction ls generalizing b with
  | nil => exact Or.inr hb
  | cons l ls ih =>
      rw [run]
      split_ifs with hl
      · exact Or.inl (by simp [dispatch, hb])
      · refine ih ?_
        by_cases hd : isData l
        · exact setField_data_ne_nil hd
        · rw [setField_data_of_not hl hd]
          exact hb

/-- **Quiet lines**: from empty data, lines dispatch nothing and leave no data
just when none of them is a data line. -/
theorem run_quiet_iff {b : Buffers} (hb : b.data = []) (ls : List PyStr) :
    ((run b ls).1 = [] ∧ (run b ls).2.data = []) ↔ ∀ l ∈ ls, ¬ isData l := by
  induction ls generalizing b with
  | nil => simpa [run] using hb
  | cons l ls ih =>
      rw [run, List.forall_mem_cons]
      split_ifs with hl
      · have hblank : ¬ isData l := by simp [isData, hl]
        rw [← ih (b := .reset) rfl]
        simp [dispatch, hb, hblank]
      · by_cases hd : isData l
        · have hdata := run_of_data (setField_data_ne_nil (b := b) hd) ls
          constructor
          · rintro ⟨h1, h2⟩
            exact absurd hdata (by simp [h1, h2])
          · rintro ⟨h1, -⟩
            exact absurd hd h1
        · rw [← ih (b := setField b l) ((setField_data_of_not hl hd).trans hb)]
          simp [hd]

/-- Data in the buffer ends with the LF of its last line. -/
lemma run_data_getLast? {b : Buffers} (hb : b.data = [] ∨ b.data.getLast? = some 0x0a)
    (ls : List PyStr) :
    (run b ls).2.data = [] ∨ (run b ls).2.data.getLast? = some 0x0a := by
  induction ls generalizing b with
  | nil => exact hb
  | cons l ls ih =>
      rw [run]
      split_ifs with hl
      · exact ih (Or.inl rfl)
      · refine ih ?_
        unfold setField
        split_ifs
        · exact hb
        · exact Or.inr (by simp)
        · exact hb

/-! ### Field lines -/

lemma field_of_prefix {name value : PyStr} (hname : 0x3a ∉ name) :
    field (name ++ 0x3a :: 0x20 :: value) = (name, value) := by
  have hall : ∀ c ∈ name, (decide (c ≠ 0x3a)) = true := by
    intro c hc
    simpa using fun he : c = 0x3a => hname (he ▸ hc)
  rw [field, List.dropWhile_append_of_pos hall, List.takeWhile_append_of_pos hall]
  simp

lemma setField_event (b : Buffers) (value : PyStr) :
    setField b (py "event: " ++ value) = { b with name := value } := by
  have hf : field (py "event: " ++ value) = (py "event", value) :=
    field_of_prefix (by decide : 0x3a ∉ py "event")
  rw [setField, if_pos (by rw [hf]), hf]

lemma setField_data (b : Buffers) (value : PyStr) :
    setField b (py "data: " ++ value) = { b with data := b.data ++ value ++ [0x0a] } := by
  have hf : field (py "data: " ++ value) = (py "data", value) :=
    field_of_prefix (by decide : 0x3a ∉ py "data")
  have hne : ¬ py "data" = py "event" := by decide
  rw [setField, if_neg (by rw [hf]; exact hne), if_pos (by rw [hf]), hf]

/-- Lines that carry data append it. -/
lemma run_data (b : Buffers) (values rest : List PyStr) :
    run b (values.map (py "data: " ++ ·) ++ rest)
      = run { b with data := b.data ++ values.flatMap (· ++ [0x0a]) } rest := by
  induction values generalizing b with
  | nil => simp
  | cons v values ih =>
      have hne : ¬ py "data: " ++ v = [] := by simp [py]
      rw [List.map_cons, List.cons_append, run, if_neg hne, setField_data, ih]
      simp

/-! ### Names -/

lemma mem_of_mem_field {line : PyStr} {c : ℕ} (h : c ∈ (field line).2) : c ∈ line := by
  rw [field] at h
  split at h
  · simp at h
  · rename_i x value hv
    have hsub : value.Sublist line :=
      (List.sublist_cons_self x value).trans (hv ▸ List.dropWhile_sublist _)
    dsimp only at h
    split_ifs at h
    · exact hsub.subset (List.mem_of_mem_tail h)
    · exact hsub.subset h

/-- An event name has no line end in it. -/
theorem not_isEol_of_mem_run {b : Buffers} {ls : List PyStr} (hb : ∀ c ∈ b.name, ¬ isEol c)
    (hls : ∀ l ∈ ls, ∀ c ∈ l, ¬ isEol c) {e : Event} (he : e ∈ (run b ls).1) :
    ∀ c ∈ e.name, ¬ isEol c := by
  induction ls generalizing b with
  | nil => simp [run] at he
  | cons l ls ih =>
      rw [List.forall_mem_cons] at hls
      rw [run] at he
      split_ifs at he with hl
      · rcases List.mem_append.mp he with he | he
        · rw [dispatch] at he
          split_ifs at he with hdata hname
          · simp at he
          · obtain rfl := List.mem_singleton.mp he
            show ∀ c ∈ py "message", ¬ isEol c
            decide
          · obtain rfl := List.mem_singleton.mp he
            exact hb
        · exact ih (by simp [Buffers.reset]) hls.2 he
      · refine ih ?_ hls.2 he
        rw [setField]
        split_ifs
        · exact fun c hc => hls.1 c (mem_of_mem_field hc)
        · exact hb
        · exact hb

/-! ### Blocks -/

/-- A text up to an LF and what follows it are read one after the other. -/
lemma run_breakLines_append (s t : PyStr) :
    run .reset (breakLines isEol [] (s ++ 0x0a :: t)).1
      = run .reset ((breakLines isEol [] (s ++ [0x0a])).1 ++ (breakLines isEol [] t).1) := by
  rw [breakLines_append_lf (by decide) (by decide)]

/-- A block: a text that ends with an LF, and whose lines leave the buffers
empty. -/
def IsBlock (s : PyStr) : Prop :=
  (∃ t, s = t ++ [0x0a]) ∧ (run .reset (breakLines isEol [] s).1).2 = .reset

/-- The events of a stream without byte order mark. -/
def events (s : PyStr) : List Event := (run .reset (breakLines isEol [] s).1).1

lemma events_append {s : PyStr} (hs : IsBlock s) (t : PyStr) :
    events (s ++ t) = events s ++ events t := by
  obtain ⟨⟨u, rfl⟩, hreset⟩ := hs
  rw [events, List.append_assoc, List.singleton_append, run_breakLines_append, run_append, hreset]
  rfl

/-- **Blocks are read one by one.** -/
theorem events_flatten {blocks : List PyStr} (h : ∀ s ∈ blocks, IsBlock s) :
    events blocks.flatten = blocks.flatMap events := by
  induction blocks with
  | nil => rfl
  | cons s blocks ih =>
      rw [List.forall_mem_cons] at h
      rw [List.flatten_cons, events_append h.1, ih h.2, List.flatMap_cons]

/-- The events of an encoded stream. -/
lemma decode_of_encodeUtf8 {s : PyStr} {b : ByteArray} (h : encodeUtf8 s = some b) :
    decode b = some (parse s) := by
  rw [decode, decodeUtf8_encodeUtf8 h, Option.map_some]

lemma parse_of_head? {s : PyStr} (h : s.head? ≠ some 0xfeff) : parse s = events s := by
  rw [parse, if_neg h, events]

/-! ### Streams that are cut off -/

/-- **The events of the beginning of a stream** are the first events of the stream. -/
theorem prefix_events {s t : PyStr} (h : s <+: t) : events s <+: events t := by
  obtain ⟨u, rfl⟩ := h
  obtain ⟨lines, hlines⟩ := @prefix_breakLines isEol [] s u
  rw [events, events, ← hlines, run_append]
  exact List.prefix_append _ _

lemma prefix_parse {s t : PyStr} (h : s <+: t) : parse s <+: parse t := by
  cases s with
  | nil => exact List.nil_prefix
  | cons c s =>
      obtain ⟨u, rfl⟩ := h
      rw [parse, parse, List.cons_append, List.head?_cons, List.head?_cons]
      refine prefix_events ?_
      split_ifs
      · exact List.prefix_append s u
      · exact List.prefix_append (c :: s) u

lemma read_of_decode {b : ByteArray} {events : List Event} (h : decode b = some events) :
    read b = events := by
  obtain ⟨s, hs, rfl⟩ := Option.map_eq_some_iff.mp h
  rw [read, decodeSoFar_of_decodeUtf8 hs]

/-- **The stream is read as it comes**: what follows only adds to the events. -/
theorem prefix_read (a b : ByteArray) : read a <+: read (a ++ b) :=
  prefix_parse (prefix_decodeSoFar a b)

end EventStream
