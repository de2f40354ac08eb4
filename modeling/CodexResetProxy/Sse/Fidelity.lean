import CodexResetProxy.Library.JsonLines
import CodexResetProxy.Sse.Format

/-!
Whether the data of an event is the message.

`_format_sse` breaks the message with `str.splitlines` and writes each line as a
`data` field, and a parser joins the fields with LF. The message comes back if
the characters at which `splitlines` breaks are line ends for the parser as
well, and if the event name brings no data of its own.

* `Faithful`: a parser dispatches one event for each message, and its data is
  the message, line ends normalized and a final one dropped, and decodes to the
  same JSON value.
* `BreaksAtEol`: the message has no line separator besides CR and LF;
  `TypeWithoutData`: no line of the type member after the first is a `data`
  field.
* `events_eq_singleton_iff`: one chunk, by counting the line feeds of the data;
  `faithful_iff`: all of them.
-/

namespace CodexResetProxy

open PyStr

/-- A parser dispatches exactly one event for each message, in order, and its
data is the message up to line ends, and the same JSON value. -/
def Faithful (depth : ℕ) (texts : List String) (chunks : List ByteArray) : Prop :=
  ∃ events, EventStream.decode (joinBytes chunks) = some events ∧
    List.Forall₂ (fun m e => e.data = dropFinalLf (normalizeEol (py m)) ∧
      Json.loads depth e.data = Json.loads depth (py m)) texts events

/-- The text has no line separator of `str.splitlines` besides CR and LF. -/
def BreaksAtEol (text : PyStr) : Prop := ∀ c ∈ text, isLineBreak c → isEol c

/-- No line of the type member after the first is a `data` field. -/
def TypeWithoutData (depth : ℕ) (text : String) : Prop :=
  ∀ payload t, Json.loads depth (py text) = .ok payload → typeMember payload = some t →
    ∀ l ∈ (nameLines t).tail, ¬ EventStream.isData l

/-! ### One chunk -/

section Chunk

variable (name data : PyStr)

/-- The data of the event that closes a chunk, before its final LF is dropped. -/
def chunkData : PyStr := (afterName name).2.data ++ (dataLines data).flatMap (· ++ [0x0a])

lemma chunkData_eq_concat : ∃ s, chunkData name data = s ++ [0x0a] := by
  obtain ⟨ls, l, hl⟩ := List.eq_nil_or_concat (dataLines data) |>.resolve_left
    (dataLines_ne_nil data)
  refine ⟨(afterName name).2.data ++ (ls.flatMap (· ++ [0x0a]) ++ l), ?_⟩
  rw [chunkData, hl]
  simp

/-- A chunk dispatches what the lines of the event name dispatch, and one event
more. -/
lemma events_sseText :
    ∃ e : EventStream.Event, EventStream.events (sseText name data) = (afterName name).1 ++ [e] ∧
      e.data = (chunkData name data).dropLast := by
  have hne : chunkData name data ≠ [] := by
    obtain ⟨s, hs⟩ := chunkData_eq_concat name data
    simp [hs]
  refine ⟨⟨if (afterName name).2.name = [] then py "message" else (afterName name).2.name,
    (chunkData name data).dropLast⟩, ?_, rfl⟩
  rw [EventStream.events, run_sseText, EventStream.dispatch, ← chunkData, if_neg hne]

/-- The lines of the event name dispatch nothing and leave no data just when none
of them after the first is a `data` field. -/
lemma afterName_quiet_iff :
    ((afterName name).1 = [] ∧ (afterName name).2.data = []) ↔
      ∀ l ∈ (nameLines name).tail, ¬ EventStream.isData l :=
  EventStream.run_quiet_iff rfl _

lemma count_flatMap_lf {ls : List PyStr} (h : ∀ l ∈ ls, ∀ c ∈ l, ¬ isEol c) :
    (ls.flatMap (· ++ [0x0a])).count 0x0a = ls.length := by
  induction ls with
  | nil => rfl
  | cons l ls ih =>
      rw [List.forall_mem_cons] at h
      have hl : l.count 0x0a = 0 := List.count_eq_zero.mpr fun hm => h.1 _ hm (by decide)
      rw [List.flatMap_cons, List.count_append, List.count_append, hl, ih h.2, List.length_cons]
      simp only [List.count_cons_self, List.count_nil]
      omega

/-- If the data is the message up to line ends, then the event name brought no
data: the lines of the message alone have as many line feeds. -/
lemma afterName_data_eq_nil
    (h : (chunkData name data).dropLast = dropFinalLf (normalizeEol data)) :
    (afterName name).2.data = [] := by
  obtain ⟨s, hs⟩ := chunkData_eq_concat name data
  have heq : chunkData name data
      = (if linesOf isEol data = [] then [[]] else linesOf isEol data).flatMap (· ++ [0x0a]) := by
    rw [flatMap_linesOf_isEol, ← h, hs, List.dropLast_concat]
  have hlines : ∀ l ∈ (if linesOf isEol data = [] then [[]] else linesOf isEol data),
      ∀ c ∈ l, ¬ isEol c := by
    split_ifs
    · simp
    · exact fun l hl => not_brk_of_mem_linesOf hl
  have hcount := congrArg (List.count 0x0a) heq
  rw [chunkData, List.count_append, count_flatMap_lf fun l hl => not_isEol_of_mem_dataLines hl,
    count_flatMap_lf hlines] at hcount
  have hle : (if linesOf isEol data = [] then [[]] else linesOf isEol data).length
      ≤ (dataLines data).length := by
    have := @length_linesOf_le isEol isLineBreak
      (fun c hc => by simp [isLineBreak, hc]) data
    have hpos := List.length_pos_of_ne_nil (dataLines_ne_nil data)
    split_ifs with hnil
    · exact hpos
    · refine this.trans ?_
      rw [dataLines, splitlines]
      split_ifs <;> simp_all
  have hzero : (afterName name).2.data.count 0x0a = 0 := by omega
  -- data in the buffer ends with a line feed
  rcases @EventStream.run_data_getLast? ⟨(nameLines name).headD [], []⟩ (Or.inl rfl)
    (nameLines name).tail with hnil | hlast
  · exact hnil
  · obtain ⟨t, ht⟩ := List.getLast?_eq_some_iff.mp hlast
    rw [afterName, ht] at hzero
    simp at hzero

lemma chunkData_of_quiet (h : (afterName name).2.data = []) :
    chunkData name data = (dataLines data).flatMap (· ++ [0x0a]) := by
  rw [chunkData, h, List.nil_append]

/-- The lines of the message come back just when `splitlines` breaks it at line
ends only. -/
lemma flatMap_dataLines_iff :
    (dataLines data).flatMap (· ++ [0x0a]) = dropFinalLf (normalizeEol data) ++ [0x0a] ↔
      BreaksAtEol data := by
  constructor
  · intro h c hc hbreak
    by_contra he
    have hmem : c ∈ dropFinalLf (normalizeEol data) ++ [0x0a] :=
      List.mem_append_left _ (mem_dropFinalLf (mem_normalizeEol hc he) he)
    rw [← h] at hmem
    obtain ⟨l, hl, hcl⟩ := List.mem_flatMap.mp hmem
    rcases List.mem_append.mp hcl with hcl | hcl
    · exact not_isLineBreak_of_mem_dataLines hl c hcl hbreak
    · obtain rfl := List.mem_singleton.mp hcl
      exact he (by decide)
  · intro h
    have hsame : splitlines data = linesOf isEol data := by
      have hcongr : ∀ c ∈ data, isLineBreak c = isEol c := by
        intro c hc
        rw [Bool.eq_iff_iff]
        exact ⟨h c hc, fun he => by simp [isLineBreak, he]⟩
      rw [splitlines, linesOf, linesOf, breakLines_congr [] data hcongr]
    rw [← flatMap_linesOf_isEol, dataLines, hsame]

/-- **One chunk** dispatches one event with the message as its data just when the
event name brings no data and `splitlines` breaks the message at line ends
only. -/
theorem events_eq_singleton_iff :
    (∃ e : EventStream.Event, EventStream.events (sseText name data) = [e] ∧
        e.data = dropFinalLf (normalizeEol data)) ↔
      (∀ l ∈ (nameLines name).tail, ¬ EventStream.isData l) ∧ BreaksAtEol data := by
  obtain ⟨e, hevents, hdata⟩ := events_sseText name data
  obtain ⟨s, hs⟩ := chunkData_eq_concat name data
  constructor
  · rintro ⟨e', he', hdata'⟩
    have hone : (afterName name).1 = [] ∧ e = e' := by
      rw [hevents] at he'
      simpa using List.append_eq_singleton_iff.mp he'
    obtain ⟨hquiet, rfl⟩ := hone
    rw [hdata] at hdata'
    have hnone := afterName_data_eq_nil name data hdata'
    refine ⟨(afterName_quiet_iff name).mp ⟨hquiet, hnone⟩, ?_⟩
    rw [← flatMap_dataLines_iff, ← chunkData_of_quiet name data hnone, ← hdata', hs,
      List.dropLast_concat]
  · rintro ⟨htype, hbreaks⟩
    obtain ⟨hquiet, hnone⟩ := (afterName_quiet_iff name).mpr htype
    refine ⟨e, by rw [hevents, hquiet, List.nil_append], ?_⟩
    rw [hdata, chunkData_of_quiet name data hnone, (flatMap_dataLines_iff data).mpr hbreaks,
      List.dropLast_concat]

end Chunk

/-! ### Whole streams -/

/-- If every part has an element and there are as many elements as parts, then
every part is one element, and elements correspond to parts. -/
lemma forall₂_flatMap_iff {α β : Type*} {R : α → β → Prop} {f : α → List β} {l : List α}
    (hf : ∀ a ∈ l, f a ≠ []) :
    List.Forall₂ R l (l.flatMap f) ↔ ∀ a ∈ l, ∃ b, f a = [b] ∧ R a b := by
  have hlen : ∀ m : List α, (∀ a ∈ m, f a ≠ []) → m.length ≤ (m.flatMap f).length := by
    intro m hm
    induction m with
    | nil => simp
    | cons a m ih =>
        rw [List.forall_mem_cons] at hm
        have hpos := List.length_pos_of_ne_nil hm.1
        have := ih hm.2
        rw [List.flatMap_cons, List.length_append, List.length_cons]
        omega
  induction l with
  | nil => simp
  | cons a l ih =>
      rw [List.forall_mem_cons] at hf ⊢
      obtain ⟨b, bs, hb⟩ := List.exists_cons_of_ne_nil hf.1
      rw [List.flatMap_cons, hb, List.cons_append, List.forall₂_cons]
      constructor
      · rintro ⟨hR, hrest⟩
        have hle := hlen l hf.2
        have heq := hrest.length_eq
        rw [List.length_append] at heq
        obtain rfl : bs = [] := List.eq_nil_of_length_eq_zero (by omega)
        exact ⟨⟨b, rfl, hR⟩, (ih hf.2).mp hrest⟩
      · rintro ⟨⟨b', hb', hR⟩, hrest⟩
        obtain ⟨rfl, rfl⟩ : b = b' ∧ bs = [] := by simpa using hb'
        exact ⟨hR, (ih hf.2).mpr hrest⟩

/-- The type member decides what the event name may bring. -/
lemma typeWithoutData_iff {depth : ℕ} {text : String} {name : PyStr} {payload : Json}
    (hload : Json.loads depth (py text) = .ok payload)
    (hname : eventType depth (py text) = .ok name) :
    TypeWithoutData depth text ↔ ∀ l ∈ (nameLines name).tail, ¬ EventStream.isData l := by
  have htype : name = (typeMember payload).getD (py "message") := by
    have : eventType depth (py text) = .ok ((typeMember payload).getD (py "message")) := by
      rw [eventType, loadsOrNone, hload]
      rfl
    simpa [this] using hname.symm
  constructor
  · intro h
    cases ht : typeMember payload with
    | none =>
        rw [htype, ht]
        decide
    | some t =>
        rw [htype, ht]
        exact h payload t hload ht
  · intro h payload' t hload' ht
    obtain rfl : payload = payload' := by simpa [hload] using hload'
    rw [htype, ht] at h
    exact h

/-- One message of a faithful stream. -/
lemma events_faithful_iff {depth : ℕ} {text : String} {payload : Json} {name : PyStr}
    (hload : Json.loads depth (py text) = .ok payload)
    (hname : eventType depth (py text) = .ok name) :
    (∃ e : EventStream.Event, EventStream.events (sseText name (py text)) = [e] ∧
        e.data = dropFinalLf (normalizeEol (py text)) ∧
        Json.loads depth e.data = Json.loads depth (py text)) ↔
      TypeWithoutData depth text ∧ BreaksAtEol (py text) := by
  rw [typeWithoutData_iff hload hname, ← events_eq_singleton_iff]
  constructor
  · rintro ⟨e, he, hdata, -⟩
    exact ⟨e, he, hdata⟩
  · rintro ⟨e, he, hdata⟩
    exact ⟨e, he, hdata, by rw [hdata, hload, Json.loads_normalizeEol hload]⟩

/-- A stream of chunks is faithful just when each of its messages is. -/
lemma faithful_iff_forall {depth : ℕ} {texts : List String} {forwards : List Forward}
    (hjson : ∀ m ∈ texts, ∃ v, Json.loads depth (py m) = .ok v)
    (hforward : List.Forall₂ (fun m f => forward depth (.text m) = .ok f) texts forwards) :
    Faithful depth texts (forwards.map Forward.chunk) ↔
      ∀ m ∈ texts, TypeWithoutData depth m ∧ BreaksAtEol (py m) := by
  have hchunks : List.Forall₂ (fun m b => sseChunk depth m = .ok b) texts
      (forwards.map Forward.chunk) :=
    List.forall₂_map_right_iff.mpr (hforward.imp fun m f h => sseChunk_of_forward h)
  have hname : ∀ m ∈ texts, eventType depth (py m) = .ok (typeOf depth m) := by
    intro m hm
    obtain ⟨b, -, hb⟩ := exists_of_forall₂ hchunks hm
    exact (sseChunk_eq_ok_iff.mp hb).1
  have hne : ∀ m ∈ texts, EventStream.events (sseText (typeOf depth m) (py m)) ≠ [] := by
    intro m _
    obtain ⟨e, he, -⟩ := events_sseText (typeOf depth m) (py m)
    simp [he]
  rw [Faithful, decode_joinBytes hchunks]
  simp only [Option.some.injEq, exists_eq_left']
  rw [forall₂_flatMap_iff hne]
  refine forall₂_congr fun m hm => ?_
  obtain ⟨v, hv⟩ := hjson m hm
  exact events_faithful_iff hv (hname m hm)

/-- **Payload fidelity** of what the proxy forwards: for valid JSON messages, a
parser dispatches one event for each message, with the message as its data up to
line ends and the same JSON value, just when no message has a line separator of
`str.splitlines` besides CR and LF, and no type member has a `data` field on a
line after its first. -/
theorem faithful_iff (depth : ℕ) (texts : List String) (forwards : List Forward)
    (hjson : ∀ m ∈ texts, ∃ v, Json.loads depth (py m) = .ok v)
    (hforward : List.Forall₂ (fun m f => forward depth (.text m) = .ok f) texts forwards) :
    Faithful depth texts (forwards.map Forward.chunk) ↔
      ∀ m ∈ texts, TypeWithoutData depth m ∧ BreaksAtEol (py m) :=
  faithful_iff_forall hjson hforward

/-- A message with a line separator comes back broken in two. -/
theorem not_faithful_lineSeparator :
    ∃ f, forward 100 (.text "\x7b\"delta\":\"a\u2028b\"\x7d") = .ok f ∧
      (∃ v, Json.loads 100 (py "\x7b\"delta\":\"a\u2028b\"\x7d") = .ok v) ∧
      ¬ Faithful 100 ["\x7b\"delta\":\"a\u2028b\"\x7d"] [f.chunk] := by
  obtain ⟨v, hv⟩ := exists_of_isOk
    (by decide +kernel : (Json.loads 100 (py "\x7b\"delta\":\"a\u2028b\"\x7d")).isOk)
  obtain ⟨f, hf⟩ := exists_of_isOk
    (by decide +kernel : (forward 100 (.text "\x7b\"delta\":\"a\u2028b\"\x7d")).isOk)
  refine ⟨f, hf, ⟨v, hv⟩, fun h => ?_⟩
  have hcond := (faithful_iff_forall (by simpa using ⟨v, hv⟩) (.cons hf .nil)).mp h
  have hbreaks := (hcond _ (List.mem_singleton.mpr rfl)).2
  exact absurd (hbreaks 0x2028 (by decide) (by decide)) (by decide)

/-- A plain message comes back as it was. -/
theorem faithful_typed :
    ∃ f, Faithful 100 ["\x7b\"type\":\"a\"\x7d"] [Forward.chunk f] := by
  obtain ⟨v, hv⟩ := exists_of_isOk
    (by decide +kernel : (Json.loads 100 (py "\x7b\"type\":\"a\"\x7d")).isOk)
  obtain ⟨f, hf⟩ := exists_of_isOk
    (by decide +kernel : (forward 100 (.text "\x7b\"type\":\"a\"\x7d")).isOk)
  obtain ⟨name, hname⟩ := exists_of_isOk
    (by decide +kernel : (eventType 100 (py "\x7b\"type\":\"a\"\x7d")).isOk)
  have heval : (eventType 100 (py "\x7b\"type\":\"a\"\x7d")).toOption = some (py "a") := by
    decide +kernel
  obtain rfl : name = py "a" := by simpa [hname, Except.toOption] using heval
  refine ⟨f, (faithful_iff 100 _ [f] (by simpa using ⟨v, hv⟩) (.cons hf .nil)).mpr ?_⟩
  intro m hm
  obtain rfl := List.mem_singleton.mp hm
  refine ⟨(typeWithoutData_iff hv hname).mpr (by decide), ?_⟩
  show ∀ c ∈ py "\x7b\"type\":\"a\"\x7d", isLineBreak c → isEol c
  decide

end CodexResetProxy
