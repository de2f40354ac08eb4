import CodexResetProxy.Bridge.Request

/-!
What the proxy does on one upstream connection, as an abstract protocol.

A connection records what the proxy did on it, in order (`Event`). `Step` says
which events may follow one another: flights of `response.create`, one or more
messages received, yielded and resumed, the last of them completing the
response, then `response.processed` if it is configured, then a silent probe and
the return to the pool; and at any point the end.

* `Run`: the records that the protocol allows, with the phase each ends in.
* `Run.split`: where an event stands in a record, its past allowed it.
* `Run.exited_last`: nothing follows the end of a connection.
* `Run.key_of_create`: a request is only sent on a connection of its own key.
-/

namespace CodexResetProxy

/-- A message as it arrived: `stamp` is the number of events the proxy had
recorded on the connection by then. -/
structure Arrival where
  message : Message
  stamp : ℕ
  deriving DecidableEq

/-- A frame of the proxy: the wrapped request, or the acknowledgement of a
response. -/
inductive Frame where
  | create (r : Request)
  | processed (responseId : PyStr)
  deriving DecidableEq

/-- What the proxy does on a connection: it calls `send`, the frame is written,
it calls `recv`, the call returns a message for a request, the event of that
message is yielded, the client resumes the stream; the probe of `release`
returns a left-over message; the connection is put into the pool; its context is
exited. -/
inductive Event where
  | send (frame : Frame)
  | sent (frame : Frame)
  | recv
  | received (r : Request) (a : Arrival)
  | yielded (r : Request) (a : Arrival)
  | resumed (r : Request)
  | drained (a : Arrival)
  | pooled
  | exited
  deriving DecidableEq

/-- The message that an event takes from the connection. -/
def Event.takes? : Event → Option Arrival
  | .received _ a => some a
  | .drained a => some a
  | _ => none

/-- Where a connection stands between two events. -/
inductive Stage where
  | ready
  | creating (r : Request)
  | created (r : Request)
  | receiving (r : Request)
  | received (r : Request) (a : Arrival)
  | yielded (r : Request) (a : Arrival)
  | resumed (r : Request)
  | completed (responseId : PyStr)
  | acking (responseId : PyStr)
  | acked
  | probing
  | drained

/-- The stage of a connection that is not exited, with whether it has been in
the pool. -/
inductive Phase where
  | live (reused : Bool) (stage : Stage)
  | gone

namespace Protocol

variable (cfg : Config) (key : WebSocketPoolKey)

/-- The events that may follow, on a connection opened under a key. -/
inductive Step : Phase → Event → Phase → Prop
  | send {b : Bool} {r : Request} (h : r.key cfg = key) :
      Step (.live b .ready) (.send (.create r)) (.live b (.creating r))
  | sent {b : Bool} {r : Request} :
      Step (.live b (.creating r)) (.sent (.create r)) (.live b (.created r))
  | recv {b : Bool} {r : Request} :
      Step (.live b (.created r)) .recv (.live b (.receiving r))
  | received {b : Bool} {r : Request} {a : Arrival} :
      Step (.live b (.receiving r)) (.received r a) (.live b (.received r a))
  | yielded {b : Bool} {r : Request} {a : Arrival} :
      Step (.live b (.received r a)) (.yielded r a) (.live b (.yielded r a))
  | resumed {b : Bool} {r : Request} {a : Arrival}
      (h : completedId cfg.runtime.depth a.message = none) :
      Step (.live b (.yielded r a)) (.resumed r) (.live b (.resumed r))
  | again {b : Bool} {r : Request} :
      Step (.live b (.resumed r)) .recv (.live b (.receiving r))
  | completed {b : Bool} {r : Request} {a : Arrival} {id : PyStr}
      (h : completedId cfg.runtime.depth a.message = some id) :
      Step (.live b (.yielded r a)) (.resumed r) (.live b (.completed id))
  | acknowledge {b : Bool} {id : PyStr}
      (h : cfg.settings.websocketSendResponseProcessed = true) :
      Step (.live b (.completed id)) (.send (.processed id)) (.live b (.acking id))
  | acknowledged {b : Bool} {id : PyStr} :
      Step (.live b (.acking id)) (.sent (.processed id)) (.live b .acked)
  | probe {b : Bool} : Step (.live b .acked) .recv (.live b .probing)
  | probeUnacknowledged {b : Bool} {id : PyStr}
      (h : cfg.settings.websocketSendResponseProcessed = false) :
      Step (.live b (.completed id)) .recv (.live b .probing)
  | drained {b : Bool} {a : Arrival} :
      Step (.live b .probing) (.drained a) (.live b .drained)
  | pooled {b : Bool} : Step (.live b .probing) .pooled (.live true .ready)
  | exited {b : Bool} {stage : Stage} : Step (.live b stage) .exited .gone

/-- The records of the protocol and the phases they end in. -/
inductive Run : List Event → Phase → Prop
  | opened : Run [] (.live false .ready)
  | snoc {log : List Event} {p q : Phase} {e : Event} (h : Run log p)
      (hstep : Step cfg key p e q) : Run (log ++ [e]) q

variable {cfg key}

/-- An event leads to one phase, under any key. -/
lemma Step.unique {key' : WebSocketPoolKey} {p q q' : Phase} {e : Event}
    (h : Step cfg key p e q) (h' : Step cfg key' p e q') : q = q' := by
  cases h with
  | resumed hnone =>
      cases h' with
      | resumed _ => rfl
      | completed hid => simp [hnone] at hid
  | completed hid =>
      cases h' with
      | resumed hnone => simp [hnone] at hid
      | completed hid' =>
          obtain rfl : _ = _ := Option.some.inj (hid.symm.trans hid')
          rfl
  | _ =>
      cases h'
      rfl

lemma Step.ne_gone {p q : Phase} {e : Event} (h : Step cfg key p e q) : p ≠ .gone := by
  cases h <;> simp

lemma Step.eq_gone {p q : Phase} (h : Step cfg key p .exited q) : q = .gone := by
  cases h
  rfl

/-- An event of a record was taken from a phase that its past allows. -/
lemma Run.split {log : List Event} {p : Phase} (h : Run cfg key log p) {before after : List Event}
    {e : Event} (hsplit : log = before ++ e :: after) :
    ∃ q q', Run cfg key before q ∧ Step cfg key q e q' := by
  induction h generalizing after with
  | opened => simp at hsplit
  | @snoc log p q e' hrun hstep ih =>
      rcases List.eq_nil_or_concat after with rfl | ⟨after, e'', rfl⟩
      · obtain ⟨rfl, he⟩ := List.append_inj' hsplit rfl
        obtain rfl := List.singleton_inj.mp he
        exact ⟨p, q, hrun, hstep⟩
      · have hsplit' : log ++ [e'] = (before ++ e :: after) ++ [e''] := by
          simpa using hsplit
        exact ih (List.append_inj' hsplit' rfl).1

/-- A connection that is not gone has not been exited. -/
lemma Run.exited_not_mem {log : List Event} {b : Bool} {stage : Stage}
    (h : Run cfg key log (.live b stage)) : Event.exited ∉ log := by
  generalize hp : Phase.live b stage = p at h
  induction h generalizing b stage with
  | opened => simp
  | @snoc log p q e hrun hstep ih =>
      subst hp
      obtain ⟨b', stage', rfl⟩ : ∃ b' stage', p = .live b' stage' := by
        cases p with
        | live b' stage' => exact ⟨b', stage', rfl⟩
        | gone => exact absurd rfl hstep.ne_gone
      intro hmem
      rcases List.mem_append.mp hmem with hmem | hmem
      · exact ih rfl hmem
      · obtain rfl := List.mem_singleton.mp hmem
        exact absurd hstep.eq_gone (by simp)

/-- A connection that is gone has been exited. -/
lemma Run.exited_mem {log : List Event} (h : Run cfg key log .gone) : .exited ∈ log := by
  cases h with
  | snoc _ hstep =>
      cases hstep with
      | exited => simp

/-- **Nothing follows the end** of a connection. -/
theorem Run.exited_last {log : List Event} {p : Phase} (h : Run cfg key log p)
    {before after : List Event} (hsplit : log = before ++ .exited :: after) : after = [] := by
  rcases List.eq_nil_or_concat after with rfl | ⟨after, e, rfl⟩
  · rfl
  · have hsplit' : log = (before ++ .exited :: after) ++ e :: [] := by simpa using hsplit
    obtain ⟨q, q', hrun, hstep⟩ := h.split hsplit'
    obtain ⟨b, stage, rfl⟩ : ∃ b stage, q = .live b stage := by
      cases q with
      | live b stage => exact ⟨b, stage, rfl⟩
      | gone => exact absurd rfl hstep.ne_gone
    exact absurd (by simp) hrun.exited_not_mem

/-- **A record determines the phase**, under any key. -/
theorem Run.unique {key' : WebSocketPoolKey} {log : List Event} {p q : Phase}
    (h : Run cfg key log p) (h' : Run cfg key' log q) : p = q := by
  generalize hlog : log = log' at h'
  induction h generalizing log' q with
  | opened =>
      cases h' with
      | opened => rfl
      | snoc _ _ => simp at hlog
  | @snoc log p p' e hrun hstep ih =>
      cases h' with
      | opened => simp at hlog
      | @snoc log'' q q' e' hrun' hstep' =>
          obtain ⟨rfl, he⟩ := List.append_inj' hlog rfl
          obtain rfl := List.singleton_inj.mp he
          obtain rfl := ih log rfl hrun'
          exact hstep.unique hstep'

/-- A request is only sent on a connection opened under its key. -/
theorem Run.key_of_create {log : List Event} {p : Phase} (h : Run cfg key log p) {r : Request}
    (hmem : .send (.create r) ∈ log ∨ .sent (.create r) ∈ log) : r.key cfg = key := by
  have hsend : ∀ {log : List Event} {p : Phase}, Run cfg key log p →
      .send (.create r) ∈ log → r.key cfg = key := by
    intro log p hrun hmem
    obtain ⟨before, after, hsplit⟩ := List.append_of_mem hmem
    obtain ⟨q, q', _, hstep⟩ := hrun.split hsplit
    cases hstep with
    | send hkey => exact hkey
  rcases hmem with hmem | hmem
  · exact hsend h hmem
  · -- the frame of a `send` that was called
    obtain ⟨before, after, hsplit⟩ := List.append_of_mem hmem
    obtain ⟨q, q', hrun, hstep⟩ := h.split hsplit
    cases hstep with
    | sent =>
        cases hrun with
        | snoc hrun' hstep' =>
            cases hstep' with
            | send hkey => exact hkey

end Protocol

end CodexResetProxy
