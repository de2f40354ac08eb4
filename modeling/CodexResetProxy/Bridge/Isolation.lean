import CodexResetProxy.Bridge.Acknowledgement

/-!
Which messages a request gets: those that arrived after it was sent.

The messages that wait on a connection are received in order by whoever reads
next, and the probe of `release` only sees those that are there in time. A
request that is written on a connection on which nothing waits gets its own
messages only.

* `Isolated`: every message that a request received, or that was yielded to it,
  arrived after the request was sent.
* `isolated_of_path`: this holds along every run that only writes requests on
  connections without unread messages.
* `not_isolated_lateMessage`: a message that arrives while the connection is idle
  is yielded to the next request.
-/

namespace CodexResetProxy

open Custody Transition Protocol PyStr

/-- The messages of every request arrived after it was sent. `stamp` counts the
events before a message. -/
def Isolated (x : Conn) : Prop :=
  ∀ r a, .received r a ∈ x.log ∨ .yielded r a ∈ x.log →
    .sent (.create r) ∈ x.log.take a.stamp

/-- The unread messages arrived after everything that was sent. -/
def Fresh (x : Conn) : Prop :=
  ∀ a ∈ x.unread, ∀ r, .sent (.create r) ∈ x.log → .sent (.create r) ∈ x.log.take a.stamp

variable {cfg : Config}

lemma mem_take_snoc {log : List Event} {e f : Event} {n : ℕ} (h : f ∈ log.take n) :
    f ∈ (log ++ [e]).take n := by
  rw [List.take_append]
  exact List.mem_append_left _ h

/-- What a connection is known to satisfy at all times. -/
structure Sound (cfg : Config) (x : Conn) : Prop where
  run : ∃ p, Run cfg (x.key cfg) x.log p
  fresh : Fresh x
  isolated : Isolated x

/-- A request that receives a message was sent. -/
lemma sent_of_receiving {key : WebSocketPoolKey} {log : List Event} {b : Bool} {r : Request}
    (h : Run cfg key log (.live b (.receiving r))) : .sent (.create r) ∈ log := by
  have hlast : (frames log).getLast? = some (.create r) := h.trail
  obtain ⟨e, he, hsent⟩ := List.mem_filterMap.mp (List.mem_of_getLast? hlast)
  cases e with
  | sent frame =>
      obtain rfl := Option.some.inj hsent
      exact he
  | _ => exact absurd hsent (by simp [Event.sent?])

/-- What is yielded to a request was received by it. -/
lemma received_of_yielded {key : WebSocketPoolKey} {log : List Event} {p : Phase} {r : Request}
    {a : Arrival} (h : Run cfg key (log ++ [.yielded r a]) p) : .received r a ∈ log := by
  obtain ⟨q, q', hrun, hstep⟩ := h.split rfl
  cases hstep with
  | yielded =>
      obtain ⟨pre, rfl, _⟩ := hrun.trail
      simp

/-- A message that waits while an event is recorded stays fresh, unless the event
is the sending of a request. -/
lemma Fresh.snoc {x : Conn} (hx : Fresh x) {e : Event} {a : Arrival} (ha : a ∈ x.unread)
    (he : ∀ r, e ≠ .sent (.create r)) {r : Request} (hmem : .sent (.create r) ∈ x.log ++ [e]) :
    .sent (.create r) ∈ (x.log ++ [e]).take a.stamp := by
  rcases List.mem_append.mp hmem with hmem | hmem
  · exact mem_take_snoc (hx a ha r hmem)
  · exact absurd (List.mem_singleton.mp hmem).symm (he r)

/-- A request stays isolated when an event is recorded, if what it receives is
fresh. -/
lemma Isolated.snoc {x : Conn} (hx : Isolated x) {key : WebSocketPoolKey} {e : Event} {p : Phase}
    (hrun : Run cfg key (x.log ++ [e]) p)
    (he : ∀ r a, e = .received r a → .sent (.create r) ∈ (x.log ++ [e]).take a.stamp)
    {r : Request} {a : Arrival}
    (hmem : .received r a ∈ x.log ++ [e] ∨ .yielded r a ∈ x.log ++ [e]) :
    .sent (.create r) ∈ (x.log ++ [e]).take a.stamp := by
  rcases hmem with hmem | hmem
  · rcases List.mem_append.mp hmem with hmem | hmem
    · exact mem_take_snoc (hx r a (Or.inl hmem))
    · exact he r a (List.mem_singleton.mp hmem).symm
  · rcases List.mem_append.mp hmem with hmem | hmem
    · exact mem_take_snoc (hx r a (Or.inr hmem))
    · obtain rfl := List.mem_singleton.mp hmem
      exact mem_take_snoc (hx r a (Or.inl (received_of_yielded hrun)))

lemma sound_step {x y : Conn} (hx : Sound cfg x) (hstep : CellStep cfg True x y) :
    Sound cfg y := by
  obtain ⟨hrun, hfresh, hisolated⟩ := hx
  cases hstep with
  | @opened r =>
      refine ⟨⟨_, .opened⟩, fun a ha => ?_, fun r' a h => ?_⟩
      · exact absurd ha List.not_mem_nil
      · exact absurd h (by simp [Request.connect, Conn.blank])
  | @did _ e p hnext htakes hstrict =>
      refine ⟨⟨p, hnext⟩, fun a ha r hmem => ?_, fun r a h => ?_⟩
      · refine hfresh.snoc ha (fun r' he => ?_) hmem
        have hnone : x.unread = [] := hstrict trivial r' he
        exact absurd ha (by simp [Conn.did, hnone])
      · refine hisolated.snoc hnext (fun r' a' he => ?_) h
        exact absurd htakes (by simp [he, Event.takes?])
  | @took _ e a rest p hnext htakes hunread =>
      have hcreate : ∀ r, e ≠ .sent (.create r) := by
        rintro r rfl
        exact absurd htakes (by simp [Event.takes?])
      refine ⟨⟨p, hnext⟩, fun b hb r hmem => ?_, fun r b h => ?_⟩
      · have hb' : b ∈ x.unread := by
          rw [hunread]
          exact List.mem_cons_of_mem _ hb
        exact hfresh.snoc hb' hcreate hmem
      · refine hisolated.snoc hnext (fun r' a' he => ?_) h
        -- the message that is received was waiting
        obtain ⟨q, q', hbefore, hstep⟩ := hnext.split rfl
        subst he
        obtain rfl := Option.some.inj htakes
        have hsent : .sent (.create r') ∈ x.log := by
          cases hstep with
          | received => exact sent_of_receiving hbefore
        exact mem_take_snoc (hfresh a' (by simp [hunread]) r' hsent)

lemma sound_drift {x y : Conn} (hx : Sound cfg x) (h : Drift x y) : Sound cfg y := by
  obtain ⟨hrun, hfresh, hisolated⟩ := hx
  cases h with
  | arrive message =>
      refine ⟨hrun, fun a ha r hmem => ?_, hisolated⟩
      rcases List.mem_append.mp ha with ha | ha
      · exact hfresh a ha r hmem
      · obtain rfl := List.mem_singleton.mp ha
        show _ ∈ x.log.take x.log.length
        rwa [List.take_length]
  | setSocket socket => exact ⟨hrun, hfresh, hisolated⟩

/-- **Isolation**: along every run that only writes a request on a connection
without unread messages, every request gets only messages that arrived after it
was sent. -/
theorem isolated_of_path {s : State} {l : List (State × Action)}
    (h : (bridge cfg).Path (bridge cfg).init l s) (hl : ∀ x ∈ l, x.2.writesClean x.1) (c : ℕ) :
    Isolated (s.world.conns.cell c) := by
  have hobeys : Obeys cfg True (fun _ => True) l := ⟨fun _ => hl, fun _ _ _ _ => trivial⟩
  have hblank : Sound cfg .blank :=
    ⟨⟨_, .opened⟩, fun a ha => absurd ha List.not_mem_nil,
      fun r a h => absurd h (by simp [Conn.blank])⟩
  exact (hobeys.cell h hblank (fun _ _ => sound_step) (fun _ _ => sound_drift) c).isolated

/-- Isolation, along a run that uses a connection twice. -/
theorem isolated_sampleReuse :
    ∃ s, (bridge sampleConfig).exec (bridge sampleConfig).init sampleReuse = some s ∧
      .sent (.create sampleSecond) ∈ (s.world.conns.cell 0).log ∧
        Isolated (s.world.conns.cell 0) := by
  have hrun : ((bridge sampleConfig).exec (bridge sampleConfig).init sampleReuse).map
      (fun s => decide (.sent (.create sampleSecond) ∈ (s.world.conns.cell 0).log))
        = some true := by
    decide +kernel
  have hclean : ((bridge sampleConfig).steps (bridge sampleConfig).init sampleReuse).all
      (fun x => x.2.writesClean x.1) = true := by
    decide +kernel
  obtain ⟨s, hs, hsent⟩ := Option.map_eq_some_iff.mp hrun
  exact ⟨s, hs, of_decide_eq_true hsent,
    isolated_of_path (System.Path.of_exec hs) (List.all_eq_true.mp hclean) 0⟩

/-- A message comes while the connection is idle; the second request is sent on
it and the message is yielded. -/
def lateMessage : List Action :=
  sampleRelease ++ [.arrive 0 (.text "late"), sampleRequest, .run 2 .wrote, .run 2 .returned,
    .run 2 .returned, .run 2 .returned]

/-- **A late message is yielded to the next request**, although it arrived before
that request was sent. -/
theorem not_isolated_lateMessage :
    ∃ s, (bridge sampleConfig).Reachable s ∧ ¬Isolated (s.world.conns.cell 0) := by
  have hrun : ((bridge sampleConfig).exec (bridge sampleConfig).init lateMessage).map
      (fun s => decide (.yielded sampleSecond ⟨.text "late", 10⟩ ∈ (s.world.conns.cell 0).log ∧
        .sent (.create sampleSecond) ∉ (s.world.conns.cell 0).log.take 10)) = some true := by
    decide +kernel
  obtain ⟨s, hs, hlate⟩ := Option.map_eq_some_iff.mp hrun
  obtain ⟨hyielded, hnot⟩ := of_decide_eq_true hlate
  exact ⟨s, System.Reachable.of_exec hs, fun h => hnot (h _ _ (Or.inr hyielded))⟩

end CodexResetProxy
