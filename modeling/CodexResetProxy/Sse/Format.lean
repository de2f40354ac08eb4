import Mathlib
import CodexResetProxy.Library.EventStream
import CodexResetProxy.Library.Json

/-!
What `stream_websocket_as_sse` makes of one upstream message: its text, the name
of its event, the id of a completed response, and the chunk it yields
(`_websocket_message_to_text`, `_event_type`, `_completed_response_id`,
`_format_sse`).

`depth` is the number of containers that `json.loads` can open in one another
before the interpreter raises `RecursionError`.

* `forward`: the body of the loop for one message, with every exception it can
  raise.
* `events_sseText`: what an event-stream parser makes of one chunk. The lines of
  the event name after its first one are read as fields of their own.
-/

namespace CodexResetProxy

open PyStr

/-- An upstream message: text is a sequence of Unicode scalar values. -/
inductive Message where
  | text (s : String)
  | binary (b : ByteArray)
  deriving DecidableEq

/-- What can be raised for a message: `UnicodeDecodeError`, what `json.loads`
raises besides `JSONDecodeError`, `UnicodeEncodeError`. -/
inductive ForwardError where
  | unicodeDecode
  | json (e : JsonError)
  | unicodeEncode
  deriving DecidableEq

/-- `_websocket_message_to_text`. -/
def websocketMessageToText : Message → Except ForwardError PyStr
  | .text s => .ok (py s)
  | .binary b => (decodeUtf8 b).elim (.error .unicodeDecode) .ok

/-- `json.loads(text)` with `JSONDecodeError` caught. -/
def loadsOrNone (depth : ℕ) (text : PyStr) : Except ForwardError (Option Json) :=
  match Json.loads depth text with
  | .ok payload => .ok (some payload)
  | .error (.decode _) => .ok none
  | .error e => .error (.json e)

/-- The string `payload["type"]` of a dictionary, if there is one. -/
def typeMember (payload : Json) : Option PyStr := (payload.get? (py "type")).bind Json.asStr

/-- `_event_type`. -/
def eventType (depth : ℕ) (text : PyStr) : Except ForwardError PyStr :=
  (loadsOrNone depth text).map fun payload => (payload.bind typeMember).getD (py "message")

/-- The id in `payload`, once it is the dictionary of a completed response. -/
def responseId (payload : Json) : Option PyStr :=
  match (payload.get? (py "response")).bind fun response =>
      (response.get? (py "id")).bind Json.asStr with
  | some id => some id
  | none => (payload.get? (py "response_id")).bind Json.asStr

/-- `_completed_response_id`. -/
def completedResponseId (depth : ℕ) (text : PyStr) : Except ForwardError (Option PyStr) :=
  (loadsOrNone depth text).map fun payload =>
    payload.bind fun payload =>
      if typeMember payload = some (py "response.completed") then responseId payload else none

/-- `data.splitlines() or [""]`. -/
def dataLines (data : PyStr) : List PyStr := if splitlines data = [] then [[]] else splitlines data

/-- The text of `_format_sse`, before it is encoded. -/
def sseText (eventType data : PyStr) : PyStr :=
  py "event: " ++ eventType ++ [0x0a] ++
    ((dataLines data).flatMap fun line => py "data: " ++ line ++ [0x0a]) ++ [0x0a]

/-- `_format_sse`. -/
def formatSse (eventType data : PyStr) : Except ForwardError ByteArray :=
  (encodeUtf8 (sseText eventType data)).elim (.error .unicodeEncode) .ok

/-- What the loop of `stream_websocket_as_sse` computes from a message: the
chunk to yield, and the id of the completed response, if it is one. -/
structure Forward where
  chunk : ByteArray
  completed : Option PyStr

/-- The body of the loop of `stream_websocket_as_sse`, up to the `yield`. -/
def forward (depth : ℕ) (message : Message) : Except ForwardError Forward := do
  let text ← websocketMessageToText message
  let name ← eventType depth text
  let completed ← completedResponseId depth text
  let chunk ← formatSse name text
  return ⟨chunk, completed⟩

/-! ### The chunk of one message -/

lemma not_isLineBreak_of_mem_dataLines {data l : PyStr} (hl : l ∈ dataLines data) :
    ∀ c ∈ l, ¬ isLineBreak c := by
  rw [dataLines] at hl
  split_ifs at hl
  · simp [List.mem_singleton.mp hl]
  · exact not_brk_of_mem_linesOf hl

lemma not_isEol_of_mem_dataLines {data l : PyStr} (hl : l ∈ dataLines data) :
    ∀ c ∈ l, ¬ isEol c := by
  intro c hc he
  exact not_isLineBreak_of_mem_dataLines hl c hc (by simp [isLineBreak, he])

lemma dataLines_ne_nil (data : PyStr) : dataLines data ≠ [] := by
  unfold dataLines
  split_ifs with h
  · simp
  · exact h

/-- The lines that carry an event name. -/
def nameLines (name : PyStr) : List PyStr := (breakLines isEol [] (name ++ [0x0a])).1

lemma nameLines_ne_nil (name : PyStr) : nameLines name ≠ [] :=
  breakLines_snoc_lf_ne_nil (by decide) (by decide) [] name

lemma nameLines_of_not_isEol {name : PyStr} (h : ∀ c ∈ name, ¬ isEol c) :
    nameLines name = [name] := by
  rw [nameLines, breakLines_append_of_not (by decide) h, List.nil_append,
    breakLines_lf (by decide)]
  rfl

/-- The lines of the text that carries an event name. -/
lemma breakLines_event (name t : PyStr) :
    (breakLines isEol [] (py "event: " ++ name ++ [0x0a] ++ t)).1
      = (nameLines name).modifyHead (py "event: " ++ ·) ++ (breakLines isEol [] t).1 := by
  have hplain : ∀ c ∈ py "event: ", ¬ isEol c := by decide
  have hprefix := @breakLines_append_left isEol (py "event: ") [] (name ++ [0x0a])
  rw [List.append_nil] at hprefix
  rw [List.append_assoc _ [0x0a] t, List.singleton_append,
    breakLines_append_lf (by decide) (by decide), List.append_assoc,
    breakLines_append_of_not (by decide) hplain, List.nil_append, hprefix, nameLines]

/-- The lines of the text that carries the data. -/
lemma breakLines_data {values : List PyStr} (h : ∀ l ∈ values, ∀ c ∈ l, ¬ isEol c) :
    (breakLines isEol []
        ((values.flatMap fun line => py "data: " ++ line ++ [0x0a]) ++ [0x0a])).1
      = values.map (py "data: " ++ ·) ++ [[]] := by
  induction values with
  | nil =>
      rw [List.flatMap_nil, List.nil_append, breakLines_lf (by decide)]
      rfl
  | cons v values ih =>
      rw [List.forall_mem_cons] at h
      have hplain : ∀ c ∈ py "data: " ++ v, ¬ isEol c := by
        intro c hc
        rcases List.mem_append.mp hc with hc | hc
        · exact (by decide : ∀ c ∈ py "data: ", ¬ isEol c) c hc
        · exact h.1 c hc
      rw [List.flatMap_cons, List.append_assoc, List.append_assoc (py "data: " ++ v),
        breakLines_append_of_not (by decide) hplain, List.nil_append, List.singleton_append,
        breakLines_lf (by decide), ih h.2]
      rfl

lemma breakLines_sseText (name data : PyStr) :
    (breakLines isEol [] (sseText name data)).1
      = (nameLines name).modifyHead (py "event: " ++ ·) ++
        ((dataLines data).map (py "data: " ++ ·) ++ [[]]) := by
  rw [sseText, List.append_assoc, breakLines_event,
    breakLines_data fun l hl => not_isEol_of_mem_dataLines hl]

/-- The buffers of a parser after the lines that carry an event name, and what
these lines dispatch. -/
def afterName (name : PyStr) : List EventStream.Event × EventStream.Buffers :=
  EventStream.run ⟨(nameLines name).headD [], []⟩ (nameLines name).tail

/-- **One chunk**: the lines of the event name after the first are fields of
their own, and the data closes the block. -/
theorem run_sseText (name data : PyStr) :
    EventStream.run .reset (breakLines isEol [] (sseText name data)).1
      = ((afterName name).1 ++ EventStream.dispatch { (afterName name).2 with
          data := (afterName name).2.data ++ (dataLines data).flatMap (· ++ [0x0a]) }, .reset) := by
  rw [breakLines_sseText]
  obtain ⟨h, tl, hlines⟩ := List.exists_cons_of_ne_nil (nameLines_ne_nil name)
  have hne : ¬ py "event: " ++ h = [] := by simp [py]
  have hafter : afterName name = EventStream.run ⟨h, []⟩ tl := by simp [afterName, hlines]
  rw [hafter, hlines, List.modifyHead_cons, List.cons_append, EventStream.run, if_neg hne,
    EventStream.setField_event, EventStream.run_append, EventStream.run_data, EventStream.run,
    if_pos rfl]
  simp [EventStream.run, EventStream.Buffers.reset]

lemma isBlock_sseText (name data : PyStr) : EventStream.IsBlock (sseText name data) :=
  ⟨⟨_, rfl⟩, by rw [run_sseText]⟩

lemma head?_flatten_sseText (blocks : List (PyStr × PyStr)) :
    (blocks.map fun p => sseText p.1 p.2).flatten.head? ≠ some 0xfeff := by
  cases blocks with
  | nil => simp
  | cons p blocks => simp [sseText, py]

/-- The events of the concatenated texts of chunks. -/
theorem parse_flatten_sseText (blocks : List (PyStr × PyStr)) :
    EventStream.parse (blocks.map fun p => sseText p.1 p.2).flatten
      = blocks.flatMap fun p => EventStream.events (sseText p.1 p.2) := by
  rw [EventStream.parse_of_head? (head?_flatten_sseText blocks), EventStream.events_flatten,
    List.flatMap_map]
  intro s hs
  obtain ⟨p, -, rfl⟩ := List.mem_map.mp hs
  exact isBlock_sseText p.1 p.2

/-! ### A stream of chunks -/

/-- The chunk of one text message, `_format_sse(_event_type(text), text)`. -/
def sseChunk (depth : ℕ) (text : String) : Except ForwardError ByteArray := do
  let name ← eventType depth (py text)
  formatSse name (py text)

/-- The event name of a text message, where `_event_type` returns one. -/
def typeOf (depth : ℕ) (text : String) : PyStr := (eventType depth (py text)).toOption.getD []

lemma eventType_eq_ok_iff {depth : ℕ} {text : String} {name : PyStr} :
    eventType depth (py text) = .ok name ↔
      (eventType depth (py text)).isOk ∧ typeOf depth text = name := by
  rw [typeOf]
  cases eventType depth (py text) with
  | error e => simp [Except.isOk, Except.toBool]
  | ok t => simp [Except.isOk, Except.toBool, Except.toOption]

lemma formatSse_eq_ok_iff {name data : PyStr} {chunk : ByteArray} :
    formatSse name data = .ok chunk ↔ encodeUtf8 (sseText name data) = some chunk := by
  rw [formatSse]
  cases encodeUtf8 (sseText name data) <;> simp

lemma sseChunk_eq_ok_iff {depth : ℕ} {text : String} {chunk : ByteArray} :
    sseChunk depth text = .ok chunk ↔
      eventType depth (py text) = .ok (typeOf depth text) ∧
        encodeUtf8 (sseText (typeOf depth text) (py text)) = some chunk := by
  rw [sseChunk, Json.bind_eq_ok]
  constructor
  · rintro ⟨name, h1, h2⟩
    obtain ⟨hok, rfl⟩ := eventType_eq_ok_iff.mp h1
    exact ⟨h1, formatSse_eq_ok_iff.mp h2⟩
  · rintro ⟨h1, h2⟩
    exact ⟨_, h1, formatSse_eq_ok_iff.mpr h2⟩

/-- What the loop yields for a text message is its chunk. -/
lemma sseChunk_of_forward {depth : ℕ} {text : String} {f : Forward}
    (h : forward depth (.text text) = .ok f) : sseChunk depth text = .ok f.chunk := by
  obtain ⟨s, hs, h1⟩ := Json.bind_eq_ok.mp h
  obtain ⟨name, hname, h2⟩ := Json.bind_eq_ok.mp h1
  obtain ⟨completed, -, h3⟩ := Json.bind_eq_ok.mp h2
  obtain ⟨chunk, hchunk, h4⟩ := Json.bind_eq_ok.mp h3
  obtain rfl : Forward.mk chunk completed = f := by simpa using h4
  obtain rfl : py text = s := by simpa [websocketMessageToText] using hs
  rw [sseChunk, hname]
  exact hchunk

lemma exists_of_isOk {ε α : Type} {x : Except ε α} (h : x.isOk) : ∃ a, x = .ok a := by
  cases x with
  | error e => simp [Except.isOk, Except.toBool] at h
  | ok a => exact ⟨a, rfl⟩

lemma exists_of_forall₂ {α β : Type*} {R : α → β → Prop} {l : List α} {m : List β}
    (h : List.Forall₂ R l m) {a : α} (ha : a ∈ l) : ∃ b ∈ m, R a b := by
  induction h with
  | nil => simp at ha
  | cons hr _ ih =>
      rcases List.mem_cons.mp ha with rfl | ha
      · exact ⟨_, by simp, hr⟩
      · obtain ⟨b, hb, hab⟩ := ih ha
        exact ⟨b, by simp [hb], hab⟩

/-- **The stream of chunks** dispatches what its chunks dispatch, in order. -/
theorem decode_joinBytes {depth : ℕ} {texts : List String} {chunks : List ByteArray}
    (h : List.Forall₂ (fun m b => sseChunk depth m = .ok b) texts chunks) :
    EventStream.decode (joinBytes chunks)
      = some (texts.flatMap fun m => EventStream.events (sseText (typeOf depth m) (py m))) := by
  have hencode : List.Forall₂ (fun s b => encodeUtf8 s = some b)
      ((texts.map fun m => (typeOf depth m, py m)).map fun p => sseText p.1 p.2) chunks := by
    rw [List.map_map, List.forall₂_map_left_iff]
    exact h.imp fun m b hb => (sseChunk_eq_ok_iff.mp hb).2
  rw [EventStream.decode_of_encodeUtf8 (encodeUtf8_flatten hencode), parse_flatten_sseText,
    List.flatMap_map]

end CodexResetProxy
