import CodexResetProxy.Sse.Fidelity
import CodexResetProxy.Sse.Stream
import CodexResetProxy.Bridge.Delivery

/-!
What the client reads of its response, however much of the stream has reached it.

* `World.chunks`: the chunks that a request was given; `messageEvents`: what a parser
  makes of the chunk of one message.
* `PlainMessage`: a message that comes back as it was; `ReadsAs`: an event that says what
  the message says.
* `decode_chunks`: the events of a stream of messages, `ReadsFirst.of_chunks`: those
  of a stream that is cut off anywhere.
* `reads_of_path`: in every run of the bridge.
-/

namespace CodexResetProxy

open Custody Transition Protocol PyStr

/-! ### Messages and their events -/

/-- What a parser makes of the chunk of a message. -/
def messageEvents (depth : ℕ) (m : Message) : List EventStream.Event :=
  match messageChunk depth m with
  | .ok chunk => (EventStream.decode chunk).getD []
  | .error _ => []

/-- A message in JSON without line separators besides CR and LF, and with none in its
type. -/
def PlainMessage (depth : ℕ) (m : Message) : Prop :=
  ∃ text : String, websocketMessageToText m = .ok (py text) ∧
    (∃ v, Json.loads depth (py text) = .ok v) ∧ CleanType depth text ∧ BreaksAtEol (py text)

/-- The event has the type of the message for its name and the message for its data, up
to line ends, which is the same JSON value. -/
def ReadsAs (depth : ℕ) (m : Message) (e : EventStream.Event) : Prop :=
  ∃ text name, websocketMessageToText m = .ok text ∧ eventType depth text = .ok name ∧
    e = ⟨eventName name, dropFinalLf (normalizeEol text)⟩ ∧
    Json.loads depth e.data = Json.loads depth text

/-- What is read of some bytes, which may end within a character, are the first events of
the messages, and, if these are plain, the first messages. -/
def ReadsFirst (depth : ℕ) (messages : List Message) (b : ByteArray) : Prop :=
  EventStream.read b <+: messages.flatMap (messageEvents depth) ∧
    ((∀ m ∈ messages, PlainMessage depth m) →
      List.Forall₂ (ReadsAs depth) (messages.take (EventStream.read b).length)
        (EventStream.read b))

section Messages

variable {depth : ℕ} {messages : List Message} {chunks : List ByteArray}

/-- The text of a message with a chunk. -/
lemma exists_sseChunk {m : Message} {chunk : ByteArray} (h : messageChunk depth m = .ok chunk) :
    ∃ text : String, websocketMessageToText m = .ok (py text) ∧
      sseChunk depth text = .ok chunk := by
  obtain ⟨text, htext, hchunk⟩ := Json.bind_eq_ok.mp h
  obtain ⟨s, rfl⟩ := exists_of_websocketMessageToText htext
  exact ⟨s, htext, hchunk⟩

lemma messageEvents_eq {m : Message} {chunk : ByteArray} {text : String}
    (h : messageChunk depth m = .ok chunk) (hchunk : sseChunk depth text = .ok chunk) :
    messageEvents depth m = EventStream.events (sseText (typeOf depth text) (py text)) := by
  have hdecode := decode_joinBytes (.cons hchunk .nil)
  rw [joinBytes, List.foldr_cons, List.foldr_nil, ByteArray.append_empty] at hdecode
  rw [messageEvents, h]
  dsimp only
  rw [hdecode]
  simp

/-- **The events of a stream of messages** are those of its messages, in order. -/
theorem decode_chunks (h : List.Forall₂ (fun m b => messageChunk depth m = .ok b) messages chunks) :
    EventStream.decode (joinBytes chunks) = some (messages.flatMap (messageEvents depth)) := by
  obtain ⟨texts, htexts, hevents⟩ : ∃ texts,
      List.Forall₂ (fun m b => sseChunk depth m = .ok b) texts chunks ∧
        messages.flatMap (messageEvents depth)
          = texts.flatMap fun m => EventStream.events (sseText (typeOf depth m) (py m)) := by
    induction h with
    | nil => exact ⟨[], .nil, rfl⟩
    | cons hm _ ih =>
        obtain ⟨text, -, hchunk⟩ := exists_sseChunk hm
        obtain ⟨texts, htexts, hevents⟩ := ih
        refine ⟨text :: texts, .cons hchunk htexts, ?_⟩
        rw [List.flatMap_cons, List.flatMap_cons, messageEvents_eq hm hchunk, hevents]
  rw [decode_joinBytes htexts, hevents]

/-- A plain message is read as one event. -/
lemma PlainMessage.events {m : Message} {chunk : ByteArray} (hm : PlainMessage depth m)
    (h : messageChunk depth m = .ok chunk) :
    ∃ e, messageEvents depth m = [e] ∧ ReadsAs depth m e := by
  obtain ⟨text, htext, ⟨v, hload⟩, hclean, hbreaks⟩ := hm
  obtain ⟨name, hname⟩ := hclean.name
  have hlines : ∀ l ∈ (nameLines (typeOf depth text)).tail, ¬ EventStream.isData l := by
    rw [nameLines_of_not_isEol fun c hc => (hname c hc).2]
    exact fun l hl => absurd hl List.not_mem_nil
  have hchunk : sseChunk depth text = .ok chunk := by
    obtain ⟨text', htext', hchunk⟩ := Json.bind_eq_ok.mp h
    obtain rfl : py text = text' := Except.ok.inj (htext.symm.trans htext')
    exact hchunk
  obtain ⟨e, he, hdata⟩ := (events_eq_singleton_iff _ _).mpr ⟨hlines, hbreaks⟩
  have hone := events_sseText_of_not_isEol (fun c hc => (hname c hc).2) (py text)
  obtain rfl := List.singleton_inj.mp (he.symm.trans hone)
  refine ⟨_, (messageEvents_eq h hchunk).trans he, py text, _, htext, name, ?_, ?_⟩
  · exact congrArg (EventStream.Event.mk _) hdata
  · rw [hdata, hload, Json.loads_normalizeEol hload]

/-- Plain messages are read one by one. -/
lemma forall₂_readsAs
    (h : List.Forall₂ (fun m b => messageChunk depth m = .ok b) messages chunks)
    (hplain : ∀ m ∈ messages, PlainMessage depth m) :
    List.Forall₂ (ReadsAs depth) messages (messages.flatMap (messageEvents depth)) := by
  induction h with
  | nil => exact .nil
  | cons hm _ ih =>
      rw [List.forall_mem_cons] at hplain
      obtain ⟨e, he, hreads⟩ := hplain.1.events hm
      rw [List.flatMap_cons, he]
      exact .cons hreads (ih hplain.2)

/-- **A stream that is cut off** is read up to there. -/
theorem ReadsFirst.of_chunks
    (h : List.Forall₂ (fun m b => messageChunk depth m = .ok b) messages chunks)
    {b rest : ByteArray} (hcut : joinBytes chunks = b ++ rest) : ReadsFirst depth messages b := by
  have hall := EventStream.read_of_decode (decode_chunks h)
  have hfirst := EventStream.prefix_read b rest
  rw [← hcut, hall] at hfirst
  refine ⟨hfirst, fun hplain => ?_⟩
  have hreads := List.forall₂_take (EventStream.read b).length (forall₂_readsAs h hplain)
  rwa [← List.prefix_iff_eq_take.mp hfirst] at hreads

end Messages

/-! ### Runs -/

/-- The chunk that is yielded to a request. -/
def Event.chunk? (depth : ℕ) (r : Request) : Event → Option ByteArray
  | .yielded r' a => if r' = r then (messageChunk depth a.message).toOption else none
  | _ => none

/-- The chunks that a request was given, one connection after the other. -/
def World.chunks (cfg : Config) (w : World) (r : Request) : List ByteArray :=
  (List.range w.conns.next).flatMap fun c =>
    (w.history c).filterMap (Event.chunk? cfg.runtime.depth r)

variable {cfg : Config} {w : World} {r : Request}

lemma chunks_of_unserved {depth : ℕ} {h : List Event} (hnone : Unserved r h) :
    h.filterMap (Event.chunk? depth r) = [] := by
  refine List.filterMap_eq_nil_iff.mpr fun e he => ?_
  cases e with
  | yielded r' a =>
      have hne : r' ≠ r := fun heq => (hnone a).2 (heq ▸ he)
      rw [Event.chunk?, if_neg hne]
  | _ => rfl

/-- What was received and yielded has chunks. -/
lemma chunks_served {depth : ℕ} {got : List Arrival}
    (h : ∀ a ∈ got, ∃ f, forward depth a.message = .ok f) :
    List.Forall₂ (fun m b => messageChunk depth m = .ok b) (got.map Arrival.message)
      ((served r got).filterMap (Event.chunk? depth r)) := by
  induction got with
  | nil => exact .nil
  | cons a got ih =>
      rw [List.forall_mem_cons] at h
      obtain ⟨f, hf⟩ := h.1
      have hchunk := (forward_eq_ok_iff.mp hf).1
      have hcons : (served r (a :: got)).filterMap (Event.chunk? depth r)
          = f.chunk :: (served r got).filterMap (Event.chunk? depth r) := by
        have hone : [Event.received r a, .yielded r a].filterMap (Event.chunk? depth r)
            = [f.chunk] := by
          simp [Event.chunk?, hchunk, Except.toOption, List.filterMap_cons]
        rw [served, List.flatMap_cons, List.filterMap_append, hone]
        rfl
      rw [hcons, List.map_cons]
      exact .cons hchunk (ih h.2)

/-- Only one of the parts is not empty. -/
lemma flatMap_range_of_ne {α : Type*} {f : ℕ → List α} {c n : ℕ} (hne : ∀ d, d ≠ c → f d = [])
    (hc : n ≤ c → f c = []) : (List.range n).flatMap f = f c := by
  induction n with
  | zero => exact (hc (Nat.zero_le c)).symm
  | succ n ih =>
      rw [List.range_succ, List.flatMap_append, List.flatMap_singleton]
      by_cases hn : n = c
      · subst hn
        have hbefore : (List.range n).flatMap f = [] :=
          List.flatMap_eq_nil_iff.mpr fun d hd => hne d (List.mem_range.mp hd).ne
        rw [hbefore, List.nil_append]
      · rw [hne n hn, List.append_nil]
        exact ih fun hle => hc (by omega)

/-- The chunks of a request are those of the messages that it was given. -/
lemma ServedOn.chunks {c : ℕ} {got : List Arrival} {pending : Option Arrival}
    {after : List Event} (hs : ServedOn cfg r w.history c got pending after)
    (hblank : ∀ d, w.conns.next ≤ d → w.conns.cell d = .blank) :
    List.Forall₂ (fun m b => messageChunk cfg.runtime.depth m = .ok b)
      (got.map Arrival.message) (w.chunks cfg r) := by
  obtain ⟨before, hbefore, hsplit⟩ := hs.split
  have hpending : (pending.toList.map (Event.received r)).filterMap
      (Event.chunk? cfg.runtime.depth r) = [] := by
    cases pending <;> rfl
  have hc : (w.history c).filterMap (Event.chunk? cfg.runtime.depth r)
      = (served r got).filterMap (Event.chunk? cfg.runtime.depth r) := by
    rw [hsplit]
    simp only [List.filterMap_append, chunks_of_unserved hbefore, hpending,
      chunks_of_unserved hs.after, List.nil_append, List.append_nil]
  have hall : w.chunks cfg r = (served r got).filterMap (Event.chunk? cfg.runtime.depth r) := by
    rw [World.chunks, flatMap_range_of_ne (fun d hd => chunks_of_unserved (hs.others d hd)), hc]
    intro hle
    rw [World.history, hblank c hle]
    rfl
  rw [hall]
  exact chunks_served hs.formatted

/-- What a request was given, at the end of a run: `messages`, which arrived one after the
other on a connection, each as a chunk.  If it ended well, the last of them is the first that
completes a response. -/
structure Given (cfg : Config) (l : List (State × Action)) (s : State) (r : Request)
    (pc : RequestPc) (c : ℕ) (messages : List Message) : Prop where
  segment : ∃ earlier later, arrived c l = earlier ++ messages ++ later
  chunks : List.Forall₂ (fun m b => messageChunk cfg.runtime.depth m = .ok b) messages
    (s.world.chunks cfg r)
  completed : pc = .finished none → ∃ before m id, messages = before ++ [m] ∧
    completedId cfg.runtime.depth m = some id ∧
    ∀ x ∈ before, completedId cfg.runtime.depth x = none

variable {s : State} {l : List (State × Action)}

/-- What a request was given, in every run of the bridge. -/
lemma given_of_path (h : (bridge cfg).Path (bridge cfg).init l s) {i : ℕ} {pc : RequestPc}
    (hi : s.tasks[i]? = some (.request r pc)) :
    ∃ c messages, Given cfg l s r pc c messages := by
  obtain ⟨c, got, pending, after, hs, hend⟩ :=
    ((serving_of_reachable ⟨l, h⟩).reception i r pc hi).served
  obtain ⟨earlier, later, hsegment⟩ := hs.segment
  refine ⟨c, got.map Arrival.message,
    ⟨earlier, pending.toList.map Arrival.message ++ later, ?_⟩,
    hs.chunks (kept_of_reachable ⟨l, h⟩).blank, fun hpc => ?_⟩
  · rw [← settled_of_path h c, hsegment, List.map_append]
    simp only [List.append_assoc]
  · obtain ⟨rfl, a, id, hlast, hid⟩ := hend hpc
    obtain ⟨before, rfl⟩ := List.getLast?_eq_some_iff.mp hlast
    refine ⟨before.map Arrival.message, a.message, id, by simp, hid, fun x hx => ?_⟩
    obtain ⟨y, hy, rfl⟩ := List.mem_map.mp hx
    exact hs.going y (by simpa using hy)

/-- What the client of a request reads, at the end of a run: `messages`, which arrived
one after the other on a connection.

* Of any beginning of its response it reads the first of them, and all of them when it
  has the whole.
* A response that ended well stops at the first message that completes one. -/
structure Reads (cfg : Config) (l : List (State × Action)) (s : State) (r : Request)
    (pc : RequestPc) (c : ℕ) (messages : List Message) : Prop where
  segment : ∃ earlier later, arrived c l = earlier ++ messages ++ later
  cut : ∀ b rest, joinBytes (s.world.chunks cfg r) = b ++ rest →
    ReadsFirst cfg.runtime.depth messages b
  whole : EventStream.decode (joinBytes (s.world.chunks cfg r))
    = some (messages.flatMap (messageEvents cfg.runtime.depth))
  completed : pc = .finished none → ∃ before m id, messages = before ++ [m] ∧
    completedId cfg.runtime.depth m = some id ∧
    ∀ x ∈ before, completedId cfg.runtime.depth x = none

/-- **What a client reads**, in every run of the bridge. -/
theorem reads_of_path (h : (bridge cfg).Path (bridge cfg).init l s) {i : ℕ} {pc : RequestPc}
    (hi : s.tasks[i]? = some (.request r pc)) :
    ∃ c messages, Reads cfg l s r pc c messages := by
  obtain ⟨c, messages, hgiven⟩ := given_of_path h hi
  exact ⟨c, messages, hgiven.segment, fun b rest hcut => .of_chunks hgiven.chunks hcut,
    decode_chunks hgiven.chunks, hgiven.completed⟩

/-- The request that a task has answered to the end. -/
def Task.answered? : Task → Option Request
  | .request r (.finished none) => some r
  | _ => none

lemma eq_of_answered? {task : Task} (h : task.answered? = some r) :
    task = .request r (.finished none) := by
  cases task with
  | request r' pc =>
      cases pc with
      | finished raised =>
          cases raised with
          | none => rw [Option.some.inj h]
          | some raised => cases h
      | _ => cases h
  | _ => cases h

/-- A run in which a response was completed. -/
lemma exists_answered :
    ∃ s l r, (bridge sampleConfig).Path (bridge sampleConfig).init l s ∧
      s.tasks[0]? = some (.request r (.finished none)) ∧ s.world.chunks sampleConfig r ≠ [] := by
  have hrun : (((bridge sampleConfig).exec (bridge sampleConfig).init sampleRelease).bind
      fun s => (s.tasks[0]?.bind Task.answered?).map fun r =>
        decide (s.world.chunks sampleConfig r ≠ [])) = some true := by
    decide +kernel
  obtain ⟨s, hs, hrun⟩ := Option.bind_eq_some_iff.mp hrun
  obtain ⟨r, hr, hchunks⟩ := Option.map_eq_some_iff.mp hrun
  obtain ⟨task, htask, hr⟩ := Option.bind_eq_some_iff.mp hr
  rw [eq_of_answered? hr] at htask
  exact ⟨s, _, r, System.Path.of_exec hs, htask, of_decide_eq_true hchunks⟩

/-- What is read of a response that was completed. -/
theorem reads_sampleRelease :
    ∃ s l r, (bridge sampleConfig).Path (bridge sampleConfig).init l s ∧
      s.tasks[0]? = some (.request r (.finished none)) ∧ s.world.chunks sampleConfig r ≠ [] ∧
      ∃ c messages, Reads sampleConfig l s r (.finished none) c messages := by
  obtain ⟨s, l, r, hpath, htask, hchunks⟩ := exists_answered
  exact ⟨s, l, r, hpath, htask, hchunks, reads_of_path hpath htask⟩

end CodexResetProxy
