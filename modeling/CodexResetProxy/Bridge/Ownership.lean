import CodexResetProxy.Bridge.Invariant

/-!
Who holds a connection, in every reachable state of the bridge.

* `State.holders`: the connections that requests are opening or streaming, that
  background tasks are acknowledging, releasing or closing, that `aclose` is
  closing, and that are idle, each as often as it is held.
* `singleFlight_of_reachable`: nobody else holds a connection that is held, and
  an exited connection is held by nobody and is used no more.
-/

namespace CodexResetProxy

open Custody Transition Protocol PyStr

/-! ### Holders -/

/-- The connections a request is opening or streaming. -/
def RequestPc.holds : RequestPc → List ℕ
  | .checkingOut _ selected stale => (selected.toList ++ stale).map Idle.conn
  | .sending o _ => [o.conn]
  | .awaitingFirst o => [o.conn]
  | .head o _ => [o.conn]
  | .suspended o _ => [o.conn]
  | .receiving o => [o.conn]
  | _ => []

/-- The connections a background task is acknowledging, releasing or closing. -/
def BackgroundPc.holds (o : Opened) : BackgroundPc → List ℕ
  | .scheduled _ => [o.conn]
  | .acknowledging _ _ => [o.conn]
  | .probing => [o.conn]
  | .evicting stale => stale.map Idle.conn
  | _ => []

/-- The connections a closer has to close. -/
def CloserPc.holds : CloserPc → List ℕ
  | .closing rest => rest.map Idle.conn
  | .finished => []

/-- The connections a task holds. -/
def Task.holds : Task → List ℕ
  | .request _ pc => pc.holds
  | .background _ o pc => pc.holds o
  | .closer pc => pc.holds

/-- The idle connections. -/
def State.idle (s : State) : List ℕ := s.world.pool.entries.map Idle.conn

/-- Every connection, as often as it is held. -/
def State.holders (s : State) : List ℕ := s.tasks.flatMap Task.holds ++ s.idle

variable {cfg : Config}

lemma map_fst_token (entries : List Idle) :
    (entries.map Idle.token).map Prod.fst = entries.map Idle.conn := by
  rw [List.map_map]
  rfl

/-- A task holds the connections of its tokens. -/
lemma Task.holds_eq (cfg : Config) (task : Task) :
    task.holds = (task.view cfg).map Prod.fst := by
  cases task with
  | request r pc =>
      cases pc with
      | checkingOut attempt selected stale =>
          show (selected.toList ++ stale).map Idle.conn = _
          rw [Task.view, RequestPc.view, List.map_append, List.map_append, map_fst_token,
            List.map_map]
          rfl
      | sending o written => cases written <;> rfl
      | _ => rfl
  | background r o pc =>
      cases pc with
      | acknowledging id written => cases written <;> rfl
      | evicting stale => exact (map_fst_token stale).symm
      | _ => rfl
  | closer pc =>
      cases pc with
      | closing rest => exact (map_fst_token rest).symm
      | finished => rfl

lemma State.holders_eq (cfg : Config) (s : State) :
    s.holders = (s.own cfg).map Prod.fst := by
  have hidle : s.idle = s.world.pool.view.map Prod.fst :=
    (map_fst_token s.world.pool.entries).symm
  have htasks : s.tasks.flatMap Task.holds
      = (s.tasks.flatMap (Task.view cfg)).map Prod.fst := by
    rw [List.map_flatMap]
    exact List.flatMap_congr fun task _ => task.holds_eq cfg
  rw [State.holders, State.own, List.map_append, hidle, htasks]

/-- The token of a connection that is not exited. -/
def Live (p : ℕ × Token) : Prop := ∃ b stage, p.2.phase = .live b stage

lemma live_token (entries : List Idle) : ∀ p ∈ entries.map Idle.token, Live p := by
  intro p hp
  obtain ⟨entry, _, rfl⟩ := List.mem_map.mp hp
  exact ⟨true, .ready, rfl⟩

lemma Opened.live_token (cfg : Config) (r : Request) (o : Opened) (stage : Stage) :
    ∀ p ∈ [o.token cfg r stage], Live p := by
  intro p hp
  obtain rfl := List.mem_singleton.mp hp
  exact ⟨o.reused, stage, rfl⟩

lemma Task.live_view (cfg : Config) (task : Task) : ∀ p ∈ task.view cfg, Live p := by
  cases task with
  | request r pc =>
      cases pc with
      | checkingOut attempt selected stale =>
          intro p hp
          rcases List.mem_append.mp hp with hp | hp
          · obtain ⟨entry, _, rfl⟩ := List.mem_map.mp hp
            exact ⟨true, .ready, rfl⟩
          · exact live_token stale p hp
      | sending o written => cases written <;> exact o.live_token cfg r _
      | awaitingFirst o => exact o.live_token cfg r _
      | head o a => exact o.live_token cfg r _
      | suspended o a => exact o.live_token cfg r _
      | receiving o => exact o.live_token cfg r _
      | _ => exact fun _ hp => absurd hp List.not_mem_nil
  | background r o pc =>
      cases pc with
      | scheduled id => exact o.live_token cfg r _
      | acknowledging id written => cases written <;> exact o.live_token cfg r _
      | probing => exact o.live_token cfg r _
      | evicting stale => exact live_token stale
      | _ => exact fun _ hp => absurd hp List.not_mem_nil
  | closer pc =>
      cases pc with
      | closing rest => exact live_token rest
      | finished => exact fun _ hp => absurd hp List.not_mem_nil

lemma State.live_own (cfg : Config) (s : State) : ∀ p ∈ s.own cfg, Live p := by
  intro p hp
  rcases List.mem_append.mp hp with hp | hp
  · obtain ⟨task, _, hp⟩ := List.mem_flatMap.mp hp
    exact task.live_view cfg p hp
  · exact live_token _ p hp

/-! ### Single flight -/

/-- At most one holder for every connection; no two tasks hold the same one, nor
does a task hold an idle one; an exited connection is not held, and nothing is
done on it any more. -/
structure SingleFlight (s : State) : Prop where
  holders : s.holders.Nodup
  tasks : ∀ (i j : ℕ) (task task' : Task), s.tasks[i]? = some task → s.tasks[j]? = some task' →
    i ≠ j → ∀ c ∈ task.holds, c ∉ task'.holds
  idle : ∀ task ∈ s.tasks, ∀ c ∈ task.holds, c ∉ s.idle
  exited : ∀ c, .exited ∈ (s.world.conns.cell c).log → c ∉ s.holders
  last : ∀ c before after, (s.world.conns.cell c).log = before ++ .exited :: after → after = []

/-- **Single flight**, in every reachable state. -/
theorem singleFlight_of_reachable {s : State} (h : (bridge cfg).Reachable s) :
    SingleFlight s := by
  have hkept := kept_of_reachable h
  have hnodup : s.holders.Nodup := by
    rw [State.holders_eq cfg]
    exact hkept.nodup
  -- tokens of tasks, of idle entries and of both together differ
  obtain ⟨htasks, _, hidle⟩ := List.nodup_append'.mp hnodup
  refine ⟨hnodup, ?_, ?_, ?_, ?_⟩
  · intro i j task task' hi hj hne c hc hc'
    obtain ⟨hilt, rfl⟩ := List.getElem?_eq_some_iff.mp hi
    obtain ⟨hjlt, rfl⟩ := List.getElem?_eq_some_iff.mp hj
    have hdisjoint := List.pairwise_iff_getElem.mp (List.nodup_flatMap.mp htasks).2
    rcases Nat.lt_or_gt_of_ne hne with hlt | hlt
    · exact hdisjoint i j hilt hjlt hlt hc hc'
    · exact hdisjoint j i hjlt hilt hlt hc' hc
  · intro task htask c hc hc'
    exact hidle (List.mem_flatMap.mpr ⟨task, htask, hc⟩) hc'
  · intro c hexited hmem
    rw [State.holders_eq cfg] at hmem
    obtain ⟨p, hp, rfl⟩ := List.mem_map.mp hmem
    obtain ⟨b, stage, hphase⟩ := s.live_own cfg p hp
    -- a connection that is held has not been closed
    obtain ⟨_, hrun⟩ := (hkept.held p hp).2
    rw [hphase] at hrun
    exact hrun.exited_not_mem hexited
  · intro c before after hlog
    obtain ⟨p, hrun⟩ := run_of_reachable h c
    exact hrun.exited_last hlog

lemma nodup_holders {s : State} (h : (bridge cfg).Reachable s) : s.holders.Nodup :=
  State.holders_eq cfg s ▸ (kept_of_reachable h).nodup

/-- Two tasks hold different connections. -/
lemma State.disjoint_holds {s : State} (hnodup : s.holders.Nodup) {i j : ℕ} {task task' : Task}
    (hi : s.tasks[i]? = some task) (hj : s.tasks[j]? = some task') (hne : i ≠ j) :
    List.Disjoint task.holds task'.holds := by
  obtain ⟨hilt, rfl⟩ := List.getElem?_eq_some_iff.mp hi
  obtain ⟨hjlt, rfl⟩ := List.getElem?_eq_some_iff.mp hj
  have hpairwise := List.pairwise_iff_getElem.mp
    (List.nodup_flatMap.mp (List.nodup_append'.mp hnodup).1).2
  rcases Nat.lt_or_gt_of_ne hne with hlt | hlt
  · exact hpairwise i j hilt hjlt hlt
  · exact (hpairwise j i hjlt hilt hlt).symm

/-! ### A run -/

/-- A request comes in. -/
def sampleRequest : Action :=
  .request (py "wss://upstream/responses") [(ascii "Authorization", ascii "Bearer a")]
    "\x7b\x7d".toUTF8

/-- A message that completes a response. -/
def sampleCompleted : Message :=
  .text "\x7b\"type\":\"response.completed\",\"response_id\":\"resp_1\"\x7d"

/-- The first request, up to the head of its response: a connection is opened,
`response.create` is sent, a completed response comes. -/
def sampleOpening : List Action :=
  [sampleRequest, .run 0 .returned, .run 0 .wrote, .run 0 .returned,
    .arrive 0 sampleCompleted, .run 0 .returned]

/-- The response is streamed, `response.processed` sent, the connection probed. -/
def sampleProbing : List Action :=
  sampleOpening ++ [.run 0 .returned, .run 0 .returned, .run 1 .returned, .run 1 .wrote,
    .run 1 .returned]

/-- Nothing comes, and the connection is put into the pool. -/
def sampleRelease : List Action := sampleProbing ++ [.run 1 (.raised .timeout)]

/-- The second request of the sample. -/
def sampleSecond : Request :=
  ⟨2, py "wss://upstream/responses", [(ascii "Authorization", ascii "Bearer a")],
    "\x7b\x7d".toUTF8⟩

/-- The second request uses the connection. -/
def sampleReuse : List Action :=
  sampleRelease ++ [sampleRequest, .run 2 .wrote, .run 2 .returned]

/-- Single flight, when a connection is used for the second time. -/
theorem singleFlight_sampleReuse :
    ∃ s, (bridge sampleConfig).exec (bridge sampleConfig).init sampleReuse = some s ∧
      s.holders = [0] ∧ SingleFlight s := by
  have hrun : (((bridge sampleConfig).exec (bridge sampleConfig).init sampleReuse).map
      State.holders) = some [0] := by
    decide +kernel
  obtain ⟨s, hs, hholders⟩ := Option.map_eq_some_iff.mp hrun
  exact ⟨s, hs, hholders, singleFlight_of_reachable (System.Reachable.of_exec hs)⟩

end CodexResetProxy
