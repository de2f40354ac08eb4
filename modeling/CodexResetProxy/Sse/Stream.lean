import CodexResetProxy.Sse.Framing

/-!
The loop of `stream_websocket_as_sse` over the messages that it is given, when no
`recv` fails and the client stays.

The loop stops at a message that has an id for its acknowledgement, not at one
whose type is `response.completed`.

* `streamWebsocketAsSse`: the loop, with the chunks it yields, the messages it
  takes and where it stands after them.
* `EndsWithCompleted`: the stream ends with the first message of type
  `response.completed`, and only with one; `CompletedHasId`: that message has an
  id, and the messages up to it can be formatted.
* `endsWithCompleted_iff`: the first holds just when the second does.
-/

namespace CodexResetProxy

open PyStr

/-- Where the generator stands: suspended in a `recv`; returned, with the
connection owned by the task that acknowledges the id; ended by an exception,
with the connection closed. -/
inductive Standing where
  | receiving
  | handedOver (responseId : PyStr)
  | raised (e : ForwardError)
  deriving DecidableEq

/-- What the generator has done: the chunks it yielded, the number of messages it
took, and where it stands. -/
structure Streamed where
  chunks : List ByteArray
  taken : ℕ
  standing : Standing
  deriving DecidableEq

/-- A message is taken and its chunk is yielded, before the rest. -/
def Streamed.cons (chunk : ByteArray) (s : Streamed) : Streamed :=
  { s with chunks := chunk :: s.chunks, taken := s.taken + 1 }

/-- The loop of `stream_websocket_as_sse`, over the messages that arrive, the
first one being the `first_message`. -/
def streamWebsocketAsSse (depth : ℕ) : List Message → Streamed
  | [] => ⟨[], 0, .receiving⟩
  | message :: messages =>
      match forward depth message with
      | .error e => ⟨[], 1, .raised e⟩
      | .ok f =>
          match f.completed with
          | some (c :: id) => ⟨[f.chunk], 1, .handedOver (c :: id)⟩
          | _ => (streamWebsocketAsSse depth messages).cons f.chunk

/-- The event of one message, `_format_sse(_event_type(text), text)`. -/
def messageChunk (depth : ℕ) (message : Message) : Except ForwardError ByteArray := do
  let text ← websocketMessageToText message
  let name ← eventType depth text
  formatSse name text

/-- The message is a JSON object whose type is `response.completed`. -/
def IsCompleted (depth : ℕ) (message : Message) : Prop :=
  ∃ text payload, websocketMessageToText message = .ok text ∧
    Json.loads depth text = .ok payload ∧ typeMember payload = some (py "response.completed")

/-- Among the messages, `m` is the first that is completed. -/
structure FirstCompleted (depth : ℕ) (messages before : List Message) (m : Message)
    (after : List Message) : Prop where
  split : messages = before ++ m :: after
  none : ∀ x ∈ before, ¬IsCompleted depth x
  completed : IsCompleted depth m

/-- **The client stream ends with `response.completed`**: the events up to the first
such message are yielded, no other message is taken, and the connection is handed
over; without such a message the generator does not return. -/
def EndsWithCompleted (depth : ℕ) (messages : List Message) : Prop :=
  (∀ before m after, FirstCompleted depth messages before m after →
    ∃ chunks id, List.Forall₂ (fun x b => messageChunk depth x = .ok b) (before ++ [m]) chunks ∧
      streamWebsocketAsSse depth messages = ⟨chunks, before.length + 1, .handedOver id⟩) ∧
  ((∀ x ∈ messages, ¬IsCompleted depth x) →
    ∀ id, (streamWebsocketAsSse depth messages).standing ≠ .handedOver id)

/-- The message can be formatted: it is text in UTF-8, `json.loads` raises nothing
but `JSONDecodeError`, and a type member that is a string has no surrogate. -/
def Formattable (depth : ℕ) (message : Message) : Prop :=
  ∃ text, websocketMessageToText message = .ok text ∧
    (∀ e, Json.loads depth text = .error e → ∃ msg, e = .decode msg) ∧
    ∀ payload t, Json.loads depth text = .ok payload → typeMember payload = some t →
      ∀ c ∈ t, c.isValidChar

/-- A completed response has an id that is not empty: that of its `response`
member, if this is an object with a string for an id, or else its `response_id`
member. -/
def HasId (payload : Json) : Prop :=
  match (payload.get? (py "response")).bind fun response =>
      (response.get? (py "id")).bind Json.asStr with
  | some id => id ≠ []
  | none => ∃ id, payload.get? (py "response_id") = some (.str id) ∧ id ≠ []

/-- If a message is completed, then the first one has an id, and the messages up to
it can be formatted. -/
def CompletedHasId (depth : ℕ) (messages : List Message) : Prop :=
  ∀ before m after, FirstCompleted depth messages before m after →
    (∀ x ∈ before ++ [m], Formattable depth x) ∧
      ∀ text payload, websocketMessageToText m = .ok text →
        Json.loads depth text = .ok payload → HasId payload

/-! ### One message -/

section Message

variable {depth : ℕ} {message : Message} {text name : PyStr} {payload : Json}

/-- The text of a message has no surrogates. -/
lemma exists_of_websocketMessageToText (h : websocketMessageToText message = .ok text) :
    ∃ s : String, text = py s := by
  cases message with
  | text s => exact ⟨s, by simpa [websocketMessageToText] using h.symm⟩
  | binary b =>
      rw [websocketMessageToText] at h
      cases hb : decodeUtf8 b with
      | none => simp [hb] at h
      | some t =>
          obtain rfl : t = text := by simpa [hb] using h
          obtain ⟨s, -, hs⟩ := Option.map_eq_some_iff.mp hb
          exact ⟨s, hs.symm⟩

lemma loadsOrNone_of_ok (h : Json.loads depth text = .ok payload) :
    loadsOrNone depth text = .ok (some payload) := by
  rw [loadsOrNone, h]

lemma isCompleted_text_iff {s : String} : IsCompleted depth (.text s) ↔
    (Json.loads depth (py s)).toOption.bind typeMember = some (py "response.completed") := by
  cases hload : Json.loads depth (py s) with
  | error e => simp [IsCompleted, websocketMessageToText, hload, Except.toOption]
  | ok payload => simp [IsCompleted, websocketMessageToText, hload, Except.toOption]

/-- `_completed_response_id` raises what `_event_type` raises. -/
lemma exists_completedResponseId (h : eventType depth text = .ok name) :
    ∃ completed, completedResponseId depth text = .ok completed := by
  rw [eventType] at h
  rw [completedResponseId]
  cases hload : loadsOrNone depth text with
  | error e => simp [hload, Except.map] at h
  | ok payload => exact ⟨_, rfl⟩

/-- A message that can be formatted has a chunk. -/
lemma exists_messageChunk_iff :
    (∃ b, messageChunk depth message = .ok b) ↔ Formattable depth message := by
  constructor
  · rintro ⟨b, hb⟩
    obtain ⟨text, htext, h⟩ := Json.bind_eq_ok.mp hb
    obtain ⟨name, hname, hformat⟩ := Json.bind_eq_ok.mp h
    refine ⟨text, htext, eventType_isOk_iff.mp ⟨name, hname⟩, fun payload t hload ht => ?_⟩
    obtain rfl : t = name := by simpa [eventType_of_typeMember hload ht] using hname
    exact isValidChar_of_encode (formatSse_eq_ok_iff.mp hformat)
  · rintro ⟨text, htext, hloads, hvalid⟩
    obtain ⟨name, hname⟩ := eventType_isOk_iff.mpr hloads
    have hchars : ∀ c ∈ name, c.isValidChar := by
      rcases eventType_cases hname with rfl | ⟨payload, hload, ht⟩
      · decide
      · exact hvalid payload name hload ht
    obtain ⟨s, rfl⟩ := exists_of_websocketMessageToText htext
    obtain ⟨b, hb⟩ := @encode_sseText name s hchars
    refine ⟨b, Json.bind_eq_ok.mpr ⟨py s, htext, Json.bind_eq_ok.mpr ⟨name, hname, ?_⟩⟩⟩
    exact formatSse_eq_ok_iff.mpr hb

/-- The body of the loop yields the chunk of the message, and looks for an id in
it. -/
lemma forward_eq_ok_iff {f : Forward} : forward depth message = .ok f ↔
    messageChunk depth message = .ok f.chunk ∧
      (websocketMessageToText message >>= completedResponseId depth) = .ok f.completed := by
  constructor
  · intro h
    obtain ⟨text, htext, h⟩ := Json.bind_eq_ok.mp h
    obtain ⟨name, hname, h⟩ := Json.bind_eq_ok.mp h
    obtain ⟨completed, hcompleted, h⟩ := Json.bind_eq_ok.mp h
    obtain ⟨chunk, hchunk, h⟩ := Json.bind_eq_ok.mp h
    obtain rfl : Forward.mk chunk completed = f := by simpa using h
    exact ⟨Json.bind_eq_ok.mpr ⟨text, htext, Json.bind_eq_ok.mpr ⟨name, hname, hchunk⟩⟩,
      Json.bind_eq_ok.mpr ⟨text, htext, hcompleted⟩⟩
  · rintro ⟨hchunk, hcompleted⟩
    obtain ⟨text, htext, h⟩ := Json.bind_eq_ok.mp hchunk
    obtain ⟨name, hname, hformat⟩ := Json.bind_eq_ok.mp h
    rw [htext] at hcompleted
    exact Json.bind_eq_ok.mpr ⟨text, htext, Json.bind_eq_ok.mpr ⟨name, hname,
      Json.bind_eq_ok.mpr ⟨f.completed, hcompleted, Json.bind_eq_ok.mpr ⟨f.chunk, hformat, rfl⟩⟩⟩⟩

/-- A message with a chunk is forwarded. -/
lemma exists_forward {chunk : ByteArray} (h : messageChunk depth message = .ok chunk) :
    ∃ completed, forward depth message = .ok ⟨chunk, completed⟩ := by
  obtain ⟨text, htext, hname⟩ := Json.bind_eq_ok.mp h
  obtain ⟨name, hname, -⟩ := Json.bind_eq_ok.mp hname
  obtain ⟨completed, hcompleted⟩ := exists_completedResponseId hname
  exact ⟨completed, forward_eq_ok_iff.mpr ⟨h, Json.bind_eq_ok.mpr ⟨text, htext, hcompleted⟩⟩⟩

/-- **Only a completed message has an id.** -/
lemma isCompleted_of_forward {f : Forward} (h : forward depth message = .ok f)
    (hsome : f.completed ≠ none) : IsCompleted depth message := by
  obtain ⟨text, htext, hid⟩ := Json.bind_eq_ok.mp (forward_eq_ok_iff.mp h).2
  rw [completedResponseId, loadsOrNone] at hid
  cases hload : Json.loads depth text with
  | error e =>
      rw [hload] at hid
      cases e with
      | decode msg => exact absurd (by simpa [Except.map] using hid.symm) hsome
      | digits => simp [Except.map] at hid
      | recursion => simp [Except.map] at hid
  | ok payload =>
      rw [hload] at hid
      by_cases ht : typeMember payload = some (py "response.completed")
      · exact ⟨text, payload, htext, hload, ht⟩
      · exact absurd (by simpa [Except.map, ht] using hid.symm) hsome

lemma completed_eq_none {f : Forward} (h : forward depth message = .ok f)
    (hnot : ¬IsCompleted depth message) : f.completed = none := by
  by_contra hsome
  exact hnot (isCompleted_of_forward h hsome)

/-- The id of a completed message, as the loop tests it. -/
lemma hasId_iff {f : Forward} (h : forward depth message = .ok f)
    (htext : websocketMessageToText message = .ok text)
    (hload : Json.loads depth text = .ok payload)
    (ht : typeMember payload = some (py "response.completed")) :
    HasId payload ↔ ∃ c id, f.completed = some (c :: id) := by
  have hid := (forward_eq_ok_iff.mp h).2
  rw [htext] at hid
  have hcompleted : f.completed = responseId payload := by
    have heq : completedResponseId depth text = .ok (responseId payload) := by
      simp [completedResponseId, loadsOrNone_of_ok hload, Except.map, ht]
    exact (Except.ok.inj (heq.symm.trans hid)).symm
  rw [hcompleted, HasId, responseId]
  cases (payload.get? (py "response")).bind fun response =>
      (response.get? (py "id")).bind Json.asStr with
  | some id => simp [List.ne_nil_iff_exists_cons]
  | none =>
      cases payload.get? (py "response_id") with
      | none => simp
      | some v => cases v <;> simp [Json.asStr, List.ne_nil_iff_exists_cons]

end Message

/-! ### The loop -/

variable {depth : ℕ} {m : Message} {messages before after : List Message} {f : Forward}

lemma streamWebsocketAsSse_of_error {e : ForwardError} (h : forward depth m = .error e)
    (messages : List Message) :
    streamWebsocketAsSse depth (m :: messages) = ⟨[], 1, .raised e⟩ := by
  rw [streamWebsocketAsSse, h]

lemma streamWebsocketAsSse_of_id {c : ℕ} {id : PyStr} (h : forward depth m = .ok f)
    (hid : f.completed = some (c :: id)) (messages : List Message) :
    streamWebsocketAsSse depth (m :: messages) = ⟨[f.chunk], 1, .handedOver (c :: id)⟩ := by
  rw [streamWebsocketAsSse, h]
  simp only [hid]

lemma streamWebsocketAsSse_of_noId (h : forward depth m = .ok f)
    (hid : ∀ c id, f.completed ≠ some (c :: id)) (messages : List Message) :
    streamWebsocketAsSse depth (m :: messages)
      = (streamWebsocketAsSse depth messages).cons f.chunk := by
  rw [streamWebsocketAsSse, h]
  dsimp only
  split
  · rename_i c id heq
    exact absurd heq (hid c id)
  · rfl

/-- **Without a completed message the generator does not return.** -/
theorem standing_ne_handedOver (h : ∀ x ∈ messages, ¬IsCompleted depth x) (id : PyStr) :
    (streamWebsocketAsSse depth messages).standing ≠ .handedOver id := by
  induction messages with
  | nil => exact Standing.noConfusion
  | cons m messages ih =>
      rw [List.forall_mem_cons] at h
      cases hf : forward depth m with
      | error e =>
          rw [streamWebsocketAsSse_of_error hf]
          exact Standing.noConfusion
      | ok f =>
          have hnone := completed_eq_none hf h.1
          rw [streamWebsocketAsSse_of_noId hf (by simp [hnone])]
          exact ih h.2

/-- A stream that takes no more than the messages up to the first completed one,
and returns, has yielded the chunk of each of them, and the completed one has an
id. -/
lemma chunks_of_handedOver {id : PyStr} {chunks : List ByteArray}
    (hbefore : ∀ x ∈ before, ¬IsCompleted depth x)
    (h : streamWebsocketAsSse depth (before ++ m :: after)
      = ⟨chunks, before.length + 1, .handedOver id⟩) :
    (∀ x ∈ before ++ [m], Formattable depth x) ∧
      ∃ f c id, forward depth m = .ok f ∧ f.completed = some (c :: id) := by
  induction before generalizing chunks with
  | nil =>
      rw [List.nil_append] at h ⊢
      cases hf : forward depth m with
      | error e =>
          rw [streamWebsocketAsSse_of_error hf] at h
          simp at h
      | ok f =>
          have hformat : Formattable depth m :=
            exists_messageChunk_iff.mp ⟨f.chunk, (forward_eq_ok_iff.mp hf).1⟩
          refine ⟨by simpa using hformat, ?_⟩
          by_contra hnot
          have hid : ∀ c id, f.completed ≠ some (c :: id) := fun c id heq =>
            hnot ⟨f, c, id, rfl, heq⟩
          -- one message is taken, so the rest has not been looked at
          rw [streamWebsocketAsSse_of_noId hf hid] at h
          have htaken : (streamWebsocketAsSse depth after).taken = 0 := by
            simpa [Streamed.cons] using congrArg Streamed.taken h
          have hstanding : (streamWebsocketAsSse depth after).standing = .handedOver id := by
            simpa [Streamed.cons] using congrArg Streamed.standing h
          cases after with
          | nil => simp [streamWebsocketAsSse] at hstanding
          | cons x after =>
              rw [streamWebsocketAsSse] at htaken
              split at htaken
              · simp at htaken
              · split at htaken <;> simp [Streamed.cons] at htaken
  | cons x before ih =>
      rw [List.forall_mem_cons] at hbefore
      rw [List.cons_append] at h
      cases hf : forward depth x with
      | error e =>
          rw [streamWebsocketAsSse_of_error hf] at h
          simp at h
      | ok f =>
          have hnone := completed_eq_none hf hbefore.1
          rw [streamWebsocketAsSse_of_noId hf (by simp [hnone])] at h
          -- what is left is such a stream itself
          have hrest : streamWebsocketAsSse depth (before ++ m :: after)
              = ⟨(streamWebsocketAsSse depth (before ++ m :: after)).chunks, before.length + 1,
                .handedOver id⟩ := by
            have htaken := congrArg Streamed.taken h
            have hstanding := congrArg Streamed.standing h
            simp only [Streamed.cons, List.length_cons, Nat.add_right_cancel_iff]
              at htaken hstanding
            rw [← htaken, ← hstanding]
          obtain ⟨hformat, hlast⟩ := ih hbefore.2 hrest
          have hx : Formattable depth x :=
            exists_messageChunk_iff.mp ⟨f.chunk, (forward_eq_ok_iff.mp hf).1⟩
          refine ⟨?_, hlast⟩
          rw [List.cons_append, List.forall_mem_cons]
          exact ⟨hx, hformat⟩

/-- **The run up to the first completed message**, when it has an id. -/
lemma streamWebsocketAsSse_of_first {c : ℕ} {id : PyStr}
    (hbefore : ∀ x ∈ before, ¬IsCompleted depth x)
    (hformat : ∀ x ∈ before, Formattable depth x)
    (hm : forward depth m = .ok f) (hid : f.completed = some (c :: id)) :
    ∃ chunks, List.Forall₂ (fun x b => messageChunk depth x = .ok b) (before ++ [m]) chunks ∧
      streamWebsocketAsSse depth (before ++ m :: after)
        = ⟨chunks, before.length + 1, .handedOver (c :: id)⟩ := by
  induction before with
  | nil =>
      refine ⟨[f.chunk], .cons (forward_eq_ok_iff.mp hm).1 .nil, ?_⟩
      rw [List.nil_append, streamWebsocketAsSse_of_id hm hid]
      rfl
  | cons x before ih =>
      rw [List.forall_mem_cons] at hbefore hformat
      obtain ⟨chunks, hchunks, hrun⟩ := ih hbefore.2 hformat.2
      obtain ⟨b, hb⟩ := exists_messageChunk_iff.mpr hformat.1
      obtain ⟨completed, hx⟩ := exists_forward hb
      have hnone : completed = none := completed_eq_none hx hbefore.1
      refine ⟨b :: chunks, .cons hb hchunks, ?_⟩
      rw [List.cons_append, streamWebsocketAsSse_of_noId hx (by simp [hnone]), hrun]
      rfl

/-- **The stream ends with `response.completed`** just when the first completed
message has an id, and the messages up to it can be formatted. -/
theorem endsWithCompleted_iff (depth : ℕ) (messages : List Message) :
    EndsWithCompleted depth messages ↔ CompletedHasId depth messages := by
  constructor
  · rintro ⟨hends, -⟩ before m after hfirst
    obtain ⟨chunks, id, -, hrun⟩ := hends before m after hfirst
    rw [hfirst.split] at hrun
    obtain ⟨hformat, f, c, id', hf, hid⟩ := chunks_of_handedOver hfirst.none hrun
    refine ⟨hformat, fun text payload htext hload => ?_⟩
    obtain ⟨text', payload', htext', hload', ht⟩ := hfirst.completed
    obtain rfl : text = text' := Except.ok.inj (htext.symm.trans htext')
    obtain rfl : payload = payload' := Except.ok.inj (hload.symm.trans hload')
    exact (hasId_iff hf htext hload ht).mpr ⟨c, id', hid⟩
  · intro h
    refine ⟨fun before m after hfirst => ?_, fun hnone => standing_ne_handedOver hnone⟩
    obtain ⟨hformat, hhasId⟩ := h before m after hfirst
    obtain ⟨text, payload, htext, hload, ht⟩ := hfirst.completed
    obtain ⟨b, hb⟩ := exists_messageChunk_iff.mpr (hformat m (by simp))
    obtain ⟨completed, hf⟩ := exists_forward hb
    obtain ⟨c, id, hid⟩ := (hasId_iff hf htext hload ht).mp (hhasId text payload htext hload)
    obtain ⟨chunks, hchunks, hrun⟩ := @streamWebsocketAsSse_of_first depth m before after _ c id
      hfirst.none (fun x hx => hformat x (by simp [hx])) hf hid
    exact ⟨chunks, c :: id, hchunks, hfirst.split ▸ hrun⟩

/-- **A completed message without an id** does not end the stream. -/
theorem not_endsWithCompleted_noId :
    ¬EndsWithCompleted 100 [.text "\x7b\"type\":\"response.completed\"\x7d"] := by
  intro h
  have hstanding : (streamWebsocketAsSse 100
      [.text "\x7b\"type\":\"response.completed\"\x7d"]).standing = .receiving := by
    decide +kernel
  have hcompleted : IsCompleted 100 (.text "\x7b\"type\":\"response.completed\"\x7d") := by
    rw [isCompleted_text_iff]
    decide +kernel
  obtain ⟨chunks, id, -, hrun⟩ := h.1 [] _ [] ⟨rfl, by simp, hcompleted⟩
  rw [hrun] at hstanding
  exact Standing.noConfusion hstanding

end CodexResetProxy
