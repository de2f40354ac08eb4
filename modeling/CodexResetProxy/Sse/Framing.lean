import CodexResetProxy.Sse.Format

/-!
One event for each message.

A chunk dispatches exactly one event, under the name it was given, as long as
the name is one line. The name is a string decoded from JSON, though, so it can
hold any character that JSON can escape: line ends, which end the line it is
written on, and surrogates, which cannot be encoded.

* `FramesIntact`: encoding raises nothing, and a parser dispatches one event for
  each message, under its name.
* `CleanType`: `json.loads` raises nothing but `JSONDecodeError`, and the type
  member has no line end and no surrogate.
* `framesIntact_iff`: the first holds just when every message meets the second.
-/

namespace CodexResetProxy

open PyStr

/-- The name under which a parser dispatches an event. -/
def eventName (name : PyStr) : PyStr := if name = [] then py "message" else name

/-- Encoding raises nothing, and a parser dispatches exactly one event for each
message, in order, under the name of the message. -/
def FramesIntact (depth : ℕ) (texts : List String) : Prop :=
  ∃ chunks events, List.Forall₂ (fun m b => sseChunk depth m = .ok b) texts chunks ∧
    EventStream.decode (joinBytes chunks) = some events ∧
    List.Forall₂ (fun m e => ∃ name, eventType depth (py m) = .ok name ∧
      e.name = eventName name) texts events

/-- `json.loads` raises nothing but `JSONDecodeError` for the message, and a type
member that is a string has no line end and no surrogate in it. -/
def CleanType (depth : ℕ) (text : String) : Prop :=
  (∀ e, Json.loads depth (py text) = .error e → ∃ msg, e = .decode msg) ∧
    ∀ payload t, Json.loads depth (py text) = .ok payload → typeMember payload = some t →
      ∀ c ∈ t, c.isValidChar ∧ ¬ isEol c

/-! ### Clean names -/

/-- `_event_type` returns what the type member says, or `message`. -/
lemma eventType_cases {depth : ℕ} {text name : PyStr} (h : eventType depth text = .ok name) :
    name = py "message" ∨
      ∃ payload, Json.loads depth text = .ok payload ∧ typeMember payload = some name := by
  rw [eventType, loadsOrNone] at h
  cases hload : Json.loads depth text with
  | error e =>
      rw [hload] at h
      cases e with
      | decode msg => exact Or.inl (by simpa [Except.map] using h.symm)
      | digits => simp [Except.map] at h
      | recursion => simp [Except.map] at h
  | ok payload =>
      rw [hload] at h
      cases ht : typeMember payload with
      | none => exact Or.inl (by simpa [Except.map, ht] using h.symm)
      | some t =>
          obtain rfl : t = name := by simpa [Except.map, ht] using h
          exact Or.inr ⟨payload, rfl, ht⟩

lemma eventType_of_typeMember {depth : ℕ} {text t : PyStr} {payload : Json}
    (h : Json.loads depth text = .ok payload) (ht : typeMember payload = some t) :
    eventType depth text = .ok t := by
  rw [eventType, loadsOrNone, h]
  simp [Except.map, ht]

/-- `_event_type` raises just what `json.loads` raises besides
`JSONDecodeError`. -/
lemma eventType_isOk_iff {depth : ℕ} {text : PyStr} :
    (∃ name, eventType depth text = .ok name) ↔
      ∀ e, Json.loads depth text = .error e → ∃ msg, e = .decode msg := by
  rw [eventType, loadsOrNone]
  cases hload : Json.loads depth text with
  | error e =>
      cases e with
      | decode msg => simp [Except.map]
      | digits => simp [Except.map]
      | recursion => simp [Except.map]
  | ok payload => simp [Except.map]

/-- A message has a clean type just when its event name can be had, is one line
and can be encoded. -/
lemma cleanType_iff {depth : ℕ} {text : String} :
    CleanType depth text ↔
      ∃ name, eventType depth (py text) = .ok name ∧ ∀ c ∈ name, c.isValidChar ∧ ¬ isEol c := by
  constructor
  · rintro ⟨hraise, htype⟩
    obtain ⟨name, hname⟩ := eventType_isOk_iff.mpr hraise
    refine ⟨name, hname, ?_⟩
    rcases eventType_cases hname with rfl | ⟨payload, hload, ht⟩
    · decide
    · exact htype payload name hload ht
  · rintro ⟨name, hname, hclean⟩
    refine ⟨eventType_isOk_iff.mp ⟨name, hname⟩, fun payload t hload ht => ?_⟩
    obtain rfl : t = name := by simpa [eventType_of_typeMember hload ht] using hname
    exact hclean

lemma isValidChar_of_encode {name data : PyStr} {b : ByteArray}
    (h : encodeUtf8 (sseText name data) = some b) : ∀ c ∈ name, c.isValidChar := by
  intro c hc
  have hall := (encodeUtf8_isSome_iff (sseText name data)).mp (by rw [h]; rfl)
  exact hall c (by simp [sseText, hc])

lemma encode_sseText {name : PyStr} {text : String} (h : ∀ c ∈ name, c.isValidChar) :
    ∃ b, encodeUtf8 (sseText name (py text)) = some b := by
  refine Option.isSome_iff_exists.mp ((encodeUtf8_isSome_iff _).mpr fun c hc => ?_)
  have hlit : ∀ c ∈ py "event: " ++ py "data: " ++ [0x0a], c.isValidChar := by decide
  have hdata : ∀ l ∈ dataLines (py text), ∀ c ∈ l, c ∈ py text := by
    intro l hl
    rw [dataLines] at hl
    split_ifs at hl
    · simp [List.mem_singleton.mp hl]
    · exact mem_of_mem_linesOf hl
  simp only [sseText, List.mem_append, List.mem_flatMap] at hc hlit
  rcases hc with (((hc | hc) | hc) | ⟨l, hl, (hc | hc) | hc⟩) | hc
  · exact hlit c (Or.inl (Or.inl hc))
  · exact h c hc
  · exact hlit c (Or.inr hc)
  · exact hlit c (Or.inl (Or.inr hc))
  · exact isValidChar_of_mem_py (hdata l hl c hc)
  · exact hlit c (Or.inr hc)
  · exact hlit c (Or.inr hc)

/-- A name of one line: its chunk dispatches one event. -/
lemma events_sseText_of_not_isEol {name : PyStr} (h : ∀ c ∈ name, ¬ isEol c) (data : PyStr) :
    EventStream.events (sseText name data)
      = [⟨eventName name, ((dataLines data).flatMap (· ++ [0x0a])).dropLast⟩] := by
  have hne : (dataLines data).flatMap (· ++ [0x0a]) ≠ [] := by
    obtain ⟨l, ls, hl⟩ := List.exists_cons_of_ne_nil (dataLines_ne_nil data)
    simp [hl]
  rw [EventStream.events, run_sseText, afterName, nameLines_of_not_isEol h]
  simp only [List.headD_cons, List.tail_cons, EventStream.run, List.nil_append]
  rw [EventStream.dispatch, if_neg hne]
  rfl

lemma not_isEol_of_mem_events {s : PyStr} {e : EventStream.Event}
    (he : e ∈ EventStream.events s) : ∀ c ∈ e.name, ¬ isEol c :=
  EventStream.not_isEol_of_mem_run (by simp [EventStream.Buffers.reset])
    (not_brk_of_mem_breakLines (by simp)).1 he

/-! ### Whole streams -/

/-- An intact stream has only messages of a clean type. -/
lemma FramesIntact.cleanType {depth : ℕ} {texts : List String} (h : FramesIntact depth texts)
    {m : String} (hm : m ∈ texts) : CleanType depth m := by
  obtain ⟨chunks, events, hchunks, hdecode, hnames⟩ := h
  obtain ⟨b, -, hb⟩ := exists_of_forall₂ hchunks hm
  obtain ⟨e, he, name, hname, heq⟩ := exists_of_forall₂ hnames hm
  obtain ⟨htype, hencode⟩ := sseChunk_eq_ok_iff.mp hb
  obtain rfl : typeOf depth m = name := by simpa [htype] using hname
  refine cleanType_iff.mpr ⟨typeOf depth m, hname, fun c hc => ?_⟩
  refine ⟨isValidChar_of_encode hencode c hc, ?_⟩
  -- the name of the event is the name of the message, and no parser finds a line
  -- end in a name
  rw [decode_joinBytes hchunks, Option.some.injEq] at hdecode
  rw [← hdecode] at he
  obtain ⟨m', -, he⟩ := List.mem_flatMap.mp he
  have hne : typeOf depth m ≠ [] := List.ne_nil_of_mem hc
  rw [eventName, if_neg hne] at heq
  exact not_isEol_of_mem_events he c (heq ▸ hc)

lemma CleanType.name {depth : ℕ} {text : String} (h : CleanType depth text) :
    eventType depth (py text) = .ok (typeOf depth text) ∧
      ∀ c ∈ typeOf depth text, c.isValidChar ∧ ¬ isEol c := by
  obtain ⟨name, hname, hc⟩ := cleanType_iff.mp h
  obtain ⟨-, rfl⟩ := eventType_eq_ok_iff.mp hname
  exact ⟨hname, hc⟩

/-- Messages of a clean type all have chunks. -/
lemma exists_chunks {depth : ℕ} {texts : List String} (h : ∀ m ∈ texts, CleanType depth m) :
    ∃ chunks, List.Forall₂ (fun m b => sseChunk depth m = .ok b) texts chunks := by
  induction texts with
  | nil => exact ⟨[], .nil⟩
  | cons m texts ih =>
      rw [List.forall_mem_cons] at h
      obtain ⟨hok, hc⟩ := h.1.name
      obtain ⟨b, hb⟩ := encode_sseText fun c hm => (hc c hm).1
      obtain ⟨bs, hbs⟩ := ih h.2
      exact ⟨b :: bs, .cons (sseChunk_eq_ok_iff.mpr ⟨hok, hb⟩) hbs⟩

/-- Messages of a clean type dispatch one event each, under their names. -/
lemma forall₂_eventName {depth : ℕ} {texts : List String} (h : ∀ m ∈ texts, CleanType depth m) :
    List.Forall₂ (fun m e => ∃ name, eventType depth (py m) = .ok name ∧ e.name = eventName name)
      texts (texts.flatMap fun m => EventStream.events (sseText (typeOf depth m) (py m))) := by
  induction texts with
  | nil => exact .nil
  | cons m texts ih =>
      rw [List.forall_mem_cons] at h
      obtain ⟨hok, hc⟩ := h.1.name
      rw [List.flatMap_cons, events_sseText_of_not_isEol fun c hm => (hc c hm).2]
      exact .cons ⟨_, hok, rfl⟩ (ih h.2)

/-- **Frame integrity** of the event stream: encoding raises nothing and a parser
dispatches one event for each message, in order, under its name, just when every
message has a clean type. -/
theorem framesIntact_iff (depth : ℕ) (texts : List String) :
    FramesIntact depth texts ↔ ∀ m ∈ texts, CleanType depth m := by
  constructor
  · exact fun h m hm => h.cleanType hm
  · intro h
    obtain ⟨chunks, hchunks⟩ := exists_chunks h
    exact ⟨chunks, _, hchunks, decode_joinBytes hchunks, forall₂_eventName h⟩

/-- A type member with escaped line feeds: one message dispatches two events. -/
theorem not_framesIntact_lineFeed :
    ¬ FramesIntact 100 ["\x7b\"type\":\"a\\ndata: 1\\n\\nevent: b\"\x7d"] := by
  intro h
  obtain ⟨name, hname, hclean⟩ := cleanType_iff.mp (h.cleanType (List.mem_singleton.mpr rfl))
  have heval : (eventType 100 (py "\x7b\"type\":\"a\\ndata: 1\\n\\nevent: b\"\x7d")).toOption
      = some (py "a\ndata: 1\n\nevent: b") := by decide +kernel
  rw [hname] at heval
  obtain rfl : name = py "a\ndata: 1\n\nevent: b" := by simpa [Except.toOption] using heval
  exact (hclean 0x0a (by decide)).2 (by decide)

end CodexResetProxy
