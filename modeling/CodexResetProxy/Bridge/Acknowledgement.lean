import CodexResetProxy.Bridge.Ownership

/-!
The order of what is sent on one connection.

Every request that is sent on a connection is answered by a completed response
before the next one is sent, and acknowledged if that is configured.

* `Flights`, `Alternating`: the frames of a connection on which every request,
  or every request but the last, was acknowledged.
* `Run.phaseFrames`: what the frames are in every phase, with acknowledgements.
* `Run.trail`: what the last events are, from the message that is received to its
  acknowledgement.
* `Run.answered`: every request but the current one has its response.
* `disciplined_of_reachable`: the discipline, in every reachable state.
-/

namespace CodexResetProxy

open Custody Transition Protocol

/-- The frame that an event has written. -/
def Event.sent? : Event → Option Frame
  | .sent frame => some frame
  | _ => none

/-- The frames that the proxy has sent. -/
def frames (log : List Event) : List Frame := log.filterMap Event.sent?

/-- `(response.create response.processed)*`. -/
inductive Flights : List Frame → Prop
  | nil : Flights []
  | snoc {l : List Frame} {r : Request} {id : PyStr} (h : Flights l) :
      Flights (l ++ [.create r, .processed id])

/-- `(response.create response.processed)*`, perhaps with one `response.create`
more. -/
inductive Alternating : List Frame → Prop
  | idle {l : List Frame} (h : Flights l) : Alternating l
  | flight {l : List Frame} {r : Request} (h : Flights l) : Alternating (l ++ [.create r])

lemma Flights.ends {l : List Frame} (h : Flights l) (hl : l ≠ []) :
    ∃ id, l.getLast? = some (.processed id) := by
  cases h with
  | nil => exact absurd rfl hl
  | @snoc l r id _ => exact ⟨id, by simp⟩

lemma frames_snoc_of_none {log : List Event} {e : Event} (h : e.sent? = none) :
    frames (log ++ [e]) = frames log := by
  simp [frames, h]

@[simp] lemma frames_snoc_sent (log : List Event) (frame : Frame) :
    frames (log ++ [.sent frame]) = frames log ++ [frame] := by
  simp [frames, Event.sent?]

namespace Protocol

variable {cfg : Config} {key : WebSocketPoolKey} {log : List Event} {p : Phase}

/-- What the frames are in a stage, when responses are acknowledged. -/
def FramesAt (l : List Frame) : Stage → Prop
  | .ready => Flights l
  | .creating _ => Flights l
  | .acked => Flights l ∧ l ≠ []
  | .probing => Flights l ∧ l ≠ []
  | .drained => Flights l ∧ l ≠ []
  | _ => ∃ l' r, Flights l' ∧ l = l' ++ [.create r]

lemma FramesAt.alternating {l : List Frame} {stage : Stage} (h : FramesAt l stage) :
    Alternating l := by
  cases stage with
  | ready | creating r => exact .idle h
  | acked | probing | drained => exact .idle h.1
  | _ =>
      obtain ⟨l', r, hl', rfl⟩ := h
      exact .flight hl'

/-- What the frames are in a phase, when responses are acknowledged. -/
def PhaseFrames (l : List Frame) : Phase → Prop
  | .live reused stage => FramesAt l stage ∧ (reused = true → l ≠ [])
  | .gone => Alternating l

lemma PhaseFrames.alternating {l : List Frame} (h : PhaseFrames l p) : Alternating l := by
  cases p with
  | live reused stage => exact h.1.alternating
  | gone => exact h

/-- **The frames of a connection**, when responses are acknowledged. -/
theorem Run.phaseFrames (hset : cfg.settings.websocketSendResponseProcessed = true)
    (h : Run cfg key log p) : PhaseFrames (frames log) p := by
  induction h with
  | opened => exact ⟨.nil, by simp⟩
  | @snoc log p q e hrun hstep ih =>
      cases hstep with
      | sent =>
          rw [frames_snoc_sent]
          exact ⟨⟨_, _, ih.1, rfl⟩, by simp⟩
      | acknowledged =>
          rw [frames_snoc_sent]
          obtain ⟨l, r, hl, hframes⟩ := ih.1
          rw [hframes, List.append_assoc]
          exact ⟨⟨.snoc hl, by simp⟩, by simp⟩
      | probeUnacknowledged hunset => exact absurd hset (by simp [hunset])
      | pooled =>
          rw [frames_snoc_of_none rfl]
          exact ⟨ih.1.1, fun _ => ih.1.2⟩
      | exited =>
          rw [frames_snoc_of_none rfl]
          exact ih.alternating
      | _ =>
          rw [frames_snoc_of_none rfl]
          exact ih

/-- What the last events are in a stage: the current request was sent last, and
from the message it receives on, that message is the last one. -/
def Trail (depth : ℕ) (log : List Event) : Stage → Prop
  | .created r => (frames log).getLast? = some (.create r)
  | .receiving r => (frames log).getLast? = some (.create r)
  | .received r a =>
      ∃ pre, log = pre ++ [.received r a] ∧ (frames pre).getLast? = some (.create r)
  | .yielded r a =>
      ∃ pre, log = pre ++ [.received r a, .yielded r a] ∧
        (frames pre).getLast? = some (.create r)
  | .resumed r => (frames log).getLast? = some (.create r)
  | .completed id =>
      ∃ pre r a, log = pre ++ [.received r a, .yielded r a, .resumed r] ∧
        (frames pre).getLast? = some (.create r) ∧ completedId depth a.message = some id
  | .acking id =>
      ∃ pre r a, log = pre ++ [.received r a, .yielded r a, .resumed r, .send (.processed id)] ∧
        (frames pre).getLast? = some (.create r) ∧ completedId depth a.message = some id
  | _ => True

/-- What the last events are in a phase. -/
def PhaseTrail (depth : ℕ) (log : List Event) : Phase → Prop
  | .live _ stage => Trail depth log stage
  | .gone => True

/-- **The last events of a connection**, from the message that is received to its
acknowledgement. -/
theorem Run.trail (h : Run cfg key log p) : PhaseTrail cfg.runtime.depth log p := by
  induction h with
  | opened => trivial
  | @snoc log p q e hrun hstep ih =>
      cases hstep with
      | send _ => trivial
      | sent =>
          show (frames (log ++ _)).getLast? = _
          rw [frames_snoc_sent, List.getLast?_concat]
      | recv | again =>
          show (frames (log ++ _)).getLast? = _
          rw [frames_snoc_of_none rfl]
          exact ih
      | received => exact ⟨log, rfl, ih⟩
      | yielded =>
          obtain ⟨pre, rfl, hlast⟩ := ih
          exact ⟨pre, by simp, hlast⟩
      | @resumed b r a _ =>
          obtain ⟨pre, rfl, hlast⟩ := ih
          -- to receive and to yield is to send nothing
          have hframes : frames (pre ++ [.received r a, .yielded r a]) = frames pre := by
            simp [frames, Event.sent?]
          show (frames _).getLast? = _
          rw [frames_snoc_of_none rfl, hframes, hlast]
      | completed hid =>
          obtain ⟨pre, rfl, hlast⟩ := ih
          exact ⟨pre, _, _, by simp, hlast, hid⟩
      | acknowledge _ =>
          obtain ⟨pre, r, a, rfl, hlast, hid⟩ := ih
          exact ⟨pre, r, a, by simp, hlast, hid⟩
      | acknowledged | probe | probeUnacknowledged _ | drained | pooled | exited => trivial

/-- The request has received the message that completes its response. -/
def Answered (depth : ℕ) (log : List Event) (r : Request) : Prop :=
  ∃ a id, .received r a ∈ log ∧ completedId depth a.message = some id

lemma Answered.snoc {depth : ℕ} {r : Request} (h : Answered depth log r) (e : Event) :
    Answered depth (log ++ [e]) r := by
  obtain ⟨a, id, hmem, hid⟩ := h
  exact ⟨a, id, List.mem_append_left _ hmem, hid⟩

/-- The request whose response is awaited or streamed in a phase. -/
def current? : Phase → Option Request
  | .live _ (.created r) => some r
  | .live _ (.receiving r) => some r
  | .live _ (.received r _) => some r
  | .live _ (.yielded r _) => some r
  | .live _ (.resumed r) => some r
  | _ => none

/-- **Every request but the current one is answered**, on a connection that is
not gone. -/
theorem Run.answered (h : Run cfg key log p) (hp : p ≠ .gone) {r : Request}
    (hmem : .sent (.create r) ∈ log) :
    Answered cfg.runtime.depth log r ∨ current? p = some r := by
  induction h generalizing r with
  | opened => exact absurd hmem List.not_mem_nil
  | @snoc log p q e hrun hstep ih =>
      have hpast : .sent (.create r) ∈ log →
          Answered cfg.runtime.depth (log ++ [e]) r ∨ current? p = some r :=
        fun hlog => (ih hstep.ne_gone hlog).imp_left fun h => h.snoc e
      have hlast : .sent (.create r) ∈ log ∨ .sent (.create r) = e := by simpa using hmem
      cases hstep with
      | sent =>
          rcases hlast with hlog | he
          · exact Or.inl ((hpast hlog).resolve_right (by simp [current?]))
          · obtain ⟨rfl⟩ : r = _ := by simpa using he
            exact Or.inr rfl
      | completed hid =>
          -- the current request has its response now
          rcases hpast (hlast.resolve_right (by simp)) with hanswered | hcurrent
          · exact Or.inl hanswered
          · obtain ⟨pre, rfl, _⟩ := hrun.trail
            obtain rfl := Option.some.inj hcurrent
            exact Or.inl ⟨_, _, by simp, hid⟩
      | exited => exact absurd rfl hp
      | _ => exact hpast (hlast.resolve_right (by simp))

/-- Without the setting nothing is acknowledged. -/
lemma Run.not_acking {b : Bool} {id : PyStr}
    (hset : cfg.settings.websocketSendResponseProcessed = false) :
    ¬Run cfg key log (.live b (.acking id)) := by
  intro h
  cases h with
  | snoc _ hstep =>
      cases hstep with
      | acknowledge hset' => exact absurd hset' (by simp [hset])

end Protocol

/-! ### Reachable states -/

/-- What is sent on a connection is in order. `idle` says that it is in the
pool.

* With `websocketSendResponseProcessed`, requests and acknowledgements
  alternate, and an idle connection ends with an acknowledgement.
* An acknowledgement follows the message whose id it carries: that message was
  the last that the request sent before it received, its event was yielded and
  the stream was resumed.
* Without the setting nothing is acknowledged.
* On an idle connection every request has received a message with a response
  id. -/
structure Disciplined (cfg : Config) (x : Conn) (idle : Prop) : Prop where
  alternating : cfg.settings.websocketSendResponseProcessed = true → Alternating (frames x.log)
  idleAcknowledged : cfg.settings.websocketSendResponseProcessed = true → idle →
    ∃ id, (frames x.log).getLast? = some (.processed id)
  acknowledged : ∀ before id after, x.log = before ++ .sent (.processed id) :: after →
    ∃ pre r a, before = pre ++ [.received r a, .yielded r a, .resumed r, .send (.processed id)] ∧
      (frames pre).getLast? = some (.create r) ∧ completedId cfg.runtime.depth a.message = some id
  unacknowledged : cfg.settings.websocketSendResponseProcessed = false →
    ∀ id, .sent (.processed id) ∉ x.log
  idleAnswered : idle → ∀ r, .sent (.create r) ∈ x.log →
    ∃ a id, .received r a ∈ x.log ∧ completedId cfg.runtime.depth a.message = some id ∧ id ≠ []

variable {cfg : Config} {s : State}

/-- An idle connection has been in use, and is ready for the next request. -/
lemma run_of_idle (h : (bridge cfg).Reachable s) {c : ℕ} (hc : c ∈ s.idle) :
    Run cfg ((s.world.conns.cell c).key cfg) (s.world.conns.cell c).log (.live true .ready) := by
  obtain ⟨entry, hentry, rfl⟩ := List.mem_map.mp hc
  exact run_of_mem_own h (List.mem_append_right _ (List.mem_map_of_mem hentry))

lemma completedId_ne_nil {depth : ℕ} {message : Message} {id : PyStr}
    (h : completedId depth message = some id) : id ≠ [] := by
  rw [completedId] at h
  split at h
  · split_ifs at h with hid
    exact Option.some.inj h ▸ hid
  · exact absurd h (by simp)

/-- **The discipline of every connection**, in every reachable state. -/
theorem disciplined_of_reachable (h : (bridge cfg).Reachable s) (c : ℕ) :
    Disciplined cfg (s.world.conns.cell c) (c ∈ s.idle) := by
  obtain ⟨p, hrun⟩ := run_of_reachable h c
  refine ⟨fun hset => (hrun.phaseFrames hset).alternating, ?_, ?_, ?_, ?_⟩
  · intro hset hidle
    obtain ⟨hflights, hne⟩ := (run_of_idle h hidle).phaseFrames hset
    exact Flights.ends hflights (hne rfl)
  · intro before id after hlog
    obtain ⟨q, q', hbefore, hstep⟩ := hrun.split hlog
    cases hstep with
    | acknowledged => exact hbefore.trail
  · intro hset id hmem
    obtain ⟨before, after, hlog⟩ := List.append_of_mem hmem
    obtain ⟨q, q', hbefore, hstep⟩ := hrun.split hlog
    cases hstep with
    | acknowledged => exact hbefore.not_acking hset
  · intro hidle r hmem
    rcases (run_of_idle h hidle).answered (by simp) hmem with ⟨a, id, hreceived, hid⟩ | hcurrent
    · exact ⟨a, id, hreceived, hid, completedId_ne_nil hid⟩
    · exact absurd hcurrent (by simp [current?])

/-- The discipline, for a connection that has been put into the pool. -/
theorem disciplined_sampleRelease :
    ∃ s, (bridge sampleConfig).exec (bridge sampleConfig).init sampleRelease = some s ∧
      s.idle = [0] ∧ Disciplined sampleConfig (s.world.conns.cell 0) (0 ∈ s.idle) := by
  have hrun : ((bridge sampleConfig).exec (bridge sampleConfig).init sampleRelease).map
      State.idle = some [0] := by
    decide +kernel
  obtain ⟨s, hs, hidle⟩ := Option.map_eq_some_iff.mp hrun
  exact ⟨s, hs, hidle, disciplined_of_reachable (System.Reachable.of_exec hs) 0⟩

end CodexResetProxy
