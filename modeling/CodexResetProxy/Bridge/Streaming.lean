import CodexResetProxy.Bridge.Calls
import CodexResetProxy.Sse.Stream

/-!
The loop of `stream_websocket_as_sse` as a run of the system.

What `streamWebsocketAsSse` computes from a list of messages is what the steps of
a request come to from the response head on, when nothing else happens and these
messages have arrived.

* `Reaches`: the place that a standing stands for.
* `head_leads`: the steps come to the place, and record the chunks.
-/

namespace CodexResetProxy

open Custody Transition

/-- The message that an event has yielded. -/
def Event.yields? : Event → Option Message
  | .yielded _ a => some a.message
  | _ => none

/-- The messages that the requests of a connection have yielded. -/
def Conn.yields (x : Conn) : List Message := x.log.filterMap Event.yields?

variable {cfg : Config} {r : Request} {o : Opened} {a : Arrival}

/-- Where a request is in the system, by where the generator stands. The id is
acknowledged in the step after the last `yield`. -/
def Reaches (cfg : Config) (w : World) (o : Opened) : RequestPc → Standing → Prop
  | .receiving o', .receiving => o' = o ∧ (w.conns.cell o.conn).unread = []
  | .suspended o' a, .handedOver id =>
      o' = o ∧ completedId cfg.runtime.depth a.message = some id
  | .closing raised, .raised e => raised = .exc e.exc
  | _, _ => False

@[simp] lemma yields_did (x : Conn) (e : Event) :
    (x.did e).yields = x.yields ++ e.yields?.toList := by
  cases h : e.yields? <;> simp [Conn.yields, Conn.did, h]

/-- The id for which the system ends the stream is the one of the loop. -/
lemma completedId_of_forward {depth : ℕ} {message : Message} {f : Forward}
    (h : forward depth message = .ok f) :
    completedId depth message = f.completed.bind fun id => if id = [] then none else some id := by
  rw [completedId, (forward_eq_ok_iff.mp h).2]
  cases f.completed <;> rfl

/-- The request gets from `x` to where the loop stands after `messages`, and the
connection records what was yielded. -/
def Streams (cfg : Config) (r : Request) (o : Opened) (messages : List Message) (w : World)
    (x : World × RequestPc) : Prop :=
  ∃ w' pc yielded, Leads cfg r x (w', pc) ∧
    Reaches cfg w' o pc (streamWebsocketAsSse cfg.runtime.depth messages).standing ∧
    (w'.conns.cell o.conn).yields = (w.conns.cell o.conn).yields ++ yielded ∧
    List.Forall₂ (fun m b => messageChunk cfg.runtime.depth m = .ok b) yielded
      (streamWebsocketAsSse cfg.runtime.depth messages).chunks

lemma Streams.of_leads {messages : List Message} {w : World} {x y : World × RequestPc}
    (hxy : Leads cfg r x y) (h : Streams cfg r o messages w y) : Streams cfg r o messages w x := by
  obtain ⟨w', pc, yielded, hl, h⟩ := h
  exact ⟨w', pc, yielded, hxy.trans hl, h⟩

/-- The loop goes round once: a message without an id is yielded, and the stream
of the others follows. -/
lemma Streams.cons {m : Message} {messages : List Message} {f : Forward} {w w₁ : World}
    {x : World × RequestPc} (hf : forward cfg.runtime.depth m = .ok f)
    (hid : ∀ c id, f.completed ≠ some (c :: id))
    (hyields : (w₁.conns.cell o.conn).yields = (w.conns.cell o.conn).yields ++ [m])
    (h : Streams cfg r o messages w₁ x) : Streams cfg r o (m :: messages) w x := by
  obtain ⟨w', pc, yielded, hl, hreach, hlog, hchunks⟩ := h
  rw [Streams, streamWebsocketAsSse_of_noId hf hid]
  refine ⟨w', pc, m :: yielded, hl, hreach, ?_, .cons (forward_eq_ok_iff.mp hf).1 hchunks⟩
  rw [hlog, hyields, List.append_assoc, List.singleton_append]

/-- The generator is resumed after a message without an id. -/
lemma resume_of_noId {f : Forward} (hf : forward cfg.runtime.depth a.message = .ok f)
    (hid : ∀ c id, f.completed ≠ some (c :: id)) (w : World) :
    resume cfg w r o a = ((w.did o.conn (.resumed r)).did o.conn .recv, .receiving o, []) := by
  have hnone : completedId cfg.runtime.depth a.message = none := by
    rw [completedId_of_forward hf]
    match hcompleted : f.completed with
    | none | some [] => rfl
    | some (c :: id) => exact absurd hcompleted (hid c id)
  rw [resume, hnone]

/-- The generator goes on with a message, and then with what it receives. -/
lemma forwardMessage_once {messages : List Message} {w : World}
    (hrest : ∀ w', (w'.conns.cell o.conn).unread = (w.conns.cell o.conn).unread →
      Streams cfg r o messages w' (w', .receiving o)) :
    Streams cfg r o (a.message :: messages) w (forwardMessage cfg w r o a) := by
  rw [forwardMessage]
  cases hf : forward cfg.runtime.depth a.message with
  | error e =>
      rw [Streams, streamWebsocketAsSse_of_error hf]
      refine ⟨w.exit o.conn, _, [], .refl _, rfl, ?_, .nil⟩
      simp [World.exit, World.did, Event.yields?]
  | ok f =>
      set w₁ := w.did o.conn (.yielded r a) with hw₁
      have hyields₁ : (w₁.conns.cell o.conn).yields
          = (w.conns.cell o.conn).yields ++ [a.message] := by
        simp [hw₁, World.did, Event.yields?]
      by_cases hid : ∃ c id, f.completed = some (c :: id)
      -- the message completes the response: it is the last one
      · obtain ⟨c, id, hid⟩ := hid
        have hcompleted : completedId cfg.runtime.depth a.message = some (c :: id) := by
          rw [completedId_of_forward hf, hid]
          rfl
        rw [Streams, streamWebsocketAsSse_of_id hf hid]
        exact ⟨w₁, _, [a.message], .refl _, ⟨rfl, hcompleted⟩, hyields₁,
          .cons (forward_eq_ok_iff.mp hf).1 .nil⟩
      -- it does not: the generator is resumed and waits for the next
      · replace hid : ∀ c id, f.completed ≠ some (c :: id) := fun c id heq => hid ⟨c, id, heq⟩
        set w₂ := (w₁.did o.conn (.resumed r)).did o.conn .recv with hw₂
        have hresumed : Leads cfg r (w₁, .suspended o a) (w₂, .receiving o) :=
          .step .returned (by simp [requestStep, resume_of_noId hf hid, hw₂])
        have hunread₂ : (w₂.conns.cell o.conn).unread = (w.conns.cell o.conn).unread := by
          simp [hw₂, hw₁, World.did, Conn.did]
        have hyields₂ : (w₂.conns.cell o.conn).yields
            = (w.conns.cell o.conn).yields ++ [a.message] := by
          rw [← hyields₁]
          simp [hw₂, World.did, Event.yields?]
        exact ((hrest w₂ hunread₂).cons hf hid hyields₂).of_leads hresumed

/-- **The generator goes on** with a message, and with those that wait. -/
theorem forwardMessage_streams (rest : List Arrival) (w : World) (a : Arrival)
    (hunread : (w.conns.cell o.conn).unread = rest) :
    Streams cfg r o (a.message :: rest.map Arrival.message) w (forwardMessage cfg w r o a) := by
  induction rest generalizing w a with
  | nil =>
      refine forwardMessage_once fun w' hw' => ?_
      exact ⟨w', _, [], .refl _, ⟨rfl, hw'.trans hunread⟩, by simp, .nil⟩
  | cons b rest ih =>
      refine forwardMessage_once fun w' hw' => ?_
      set w₁ := w'.take o.conn (.received r b) rest with hw₁
      have hreceived : Leads cfg r (w', .receiving o) (forwardMessage cfg w₁ r o b) :=
        .step .returned (by simp [requestStep, hw'.trans hunread, hw₁])
      have hunread₁ : (w₁.conns.cell o.conn).unread = rest := by simp [hw₁, World.take]
      have hyields₁ : (w₁.conns.cell o.conn).yields = (w'.conns.cell o.conn).yields := by
        simp [hw₁, World.take, Conn.yields, Conn.did, Event.yields?]
      obtain ⟨w'', pc, yielded, hl, hreach, hlog, hchunks⟩ := ih w₁ b hunread₁
      exact ⟨w'', pc, yielded, hreceived.trans hl, hreach, hyields₁ ▸ hlog, hchunks⟩

/-- **The loop is a run**: from the response head on, a request gets to where
`streamWebsocketAsSse` stands after its first message and those that wait. -/
theorem head_leads (w : World) (a : Arrival) :
    Streams cfg r o (a.message :: (w.conns.cell o.conn).unread.map Arrival.message) w
      (w, .head o a) := by
  have hstarted : Leads cfg r (w, .head o a) (forwardMessage cfg w r o a) := .step .returned rfl
  exact (forwardMessage_streams _ w a rfl).of_leads hstarted

end CodexResetProxy
