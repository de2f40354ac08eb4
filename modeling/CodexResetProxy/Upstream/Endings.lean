import CodexResetProxy.Bridge.Attempts
import CodexResetProxy.Upstream.Attempts

/-!
How the two calls upstream end, and what they start with.

* `GetsHeaders`: some attempt of `open_upstream_with_retries` gets headers in time;
  `isOk_openUpstreamRecorded_iff`: then, and only then, the call returns.
* `Uncaught`: an attempt of `open_websocket_bridge_with_retries` raises what nobody
  catches; `escapes_openBridgeRecorded_iff`: then, and only then, the call does.
* `requests_start`, `logs_start`: what the first attempt is.
-/

namespace CodexResetProxy

open PyStr Retry

/-! ### Plain HTTP -/

section Http

variable (cfg : Config) (x : Exchange)

/-- An attempt gets headers, and the attempts before it are tried again. -/
def GetsHeaders : Prop :=
  ∃ i < cfg.settings.upstreamMaxAttempts, x.enter (1 + i) = .headers ∧
    ∀ j < i, Retried cfg x (1 + j)

variable {cfg x} {response : ℕ → UpstreamResponse} {request : UpstreamRequest}
  {method url : PyStr} {headers : RawHeaders} {body : List UInt8}

/-- What an attempt comes to, in terms of its exchange. -/
lemma attemptUpstream_spec (k : ℕ) :
    ((attemptUpstream cfg x response request k).1.isDone = true ↔ x.enter k = .headers) ∧
      ((attemptUpstream cfg x response request k).1.isFailed = true ↔ Retried cfg x k) := by
  rw [attemptUpstream, Retried]
  cases henter : x.enter k with
  | headers => simp [Attempt.isDone, Attempt.isFailed]
  | raised e =>
      dsimp only
      cases herr : headerError? cfg e with
      | none => simp [Attempt.isDone, Attempt.isFailed, herr]
      | some err =>
          dsimp only
          cases haclose : x.aclose k <;> simp [Attempt.isDone, Attempt.isFailed, herr]

/-- **The call returns** just when an attempt gets headers in time. -/
theorem isOk_openUpstreamRecorded_iff :
    (openUpstreamRecorded cfg x response method url headers body).1.isOk = true ↔
      GetsHeaders cfg x := by
  rw [openUpstreamRecorded]
  set step := recorded (upstreamStep cfg x response ⟨method, url, headers, contentOf body⟩)
    with hstep
  have hdone : (run step cfg.settings.upstreamMaxAttempts 1 ((), [])
      upstreamRequestFailed).1.isDone = true ↔ GetsHeaders cfg x := by
    rw [run_done_iff]
    refine exists_congr fun i => and_congr_right fun _ => ?_
    simp only [FirstDone, hstep, results_recorded, results_upstreamStep, attemptUpstream_spec]
  rw [← hdone]
  cases run step cfg.settings.upstreamMaxAttempts 1 ((), []) upstreamRequestFailed with
  | mk outcome p => cases outcome <;> rfl

/-- The first request of a call. -/
lemma requests_start (hpos : 0 < cfg.settings.upstreamMaxAttempts) :
    (requestsOf (openUpstreamRecorded cfg x response method url headers body).2).head?
      = some ⟨method, url, headers, contentOf body⟩ := by
  obtain ⟨n, hn⟩ := Nat.exists_eq_succ_of_ne_zero (Nat.ne_zero_of_lt hpos)
  set request : UpstreamRequest := ⟨method, url, headers, contentOf body⟩ with hrequest
  have hfirst : [.made 1, .requested 1 request]
      <+: (attemptUpstream cfg x response request 1).2 := by
    rw [attemptUpstream]
    cases x.enter 1 with
    | headers => exact ⟨[_], rfl⟩
    | raised e =>
        dsimp only
        cases headerError? cfg e with
        | none => exact List.prefix_rfl
        | some err =>
            dsimp only
            cases x.aclose 1 <;> exact ⟨[_], rfl⟩
  set step := upstreamStep cfg x response request with hstep
  have hrun : (step 1 ()).2.2 <+: (run (recorded step) (n + 1) 1 ((), [])
      upstreamRequestFailed).2.2 := first_prefix_run n 1 () upstreamRequestFailed
  have hrecord : (openUpstreamRecorded cfg x response method url headers body).2
      = (run (recorded step) (n + 1) 1 ((), []) upstreamRequestFailed).2.2 := by
    rw [openUpstreamRecorded, hn, ← hrequest, ← hstep]
    cases run (recorded step) (n + 1) 1 ((), []) upstreamRequestFailed with
    | mk outcome p => cases outcome <;> rfl
  obtain ⟨rest, hrest⟩ := hfirst.trans hrun
  rw [hrecord, ← hrest]
  rfl

end Http

/-! ### Websockets -/

section Bridge

variable (cfg : Config) (x : Course) (r : Request) (pool : Option Pool)

/-- An attempt raises what nobody catches: `json.loads` anything but a `JSONDecodeError`,
or the first `recv` anything but an `OSError` or a `WebSocketException`, after attempts
that failed. -/
def Uncaught : Prop :=
  match buildResponseCreateRequest cfg.runtime.depth r.body with
  | .error (.bridge _) => False
  | .error _ => 0 < cfg.settings.upstreamMaxAttempts
  | .ok _ => ∃ i < cfg.settings.upstreamMaxAttempts, ¬(outcomeAt cfg x r pool i).Caught ∧
      ∀ j < i, (outcomeAt cfg x r pool j).failure ≠ none ∧ (outcomeAt cfg x r pool j).Caught

/-- A call ends with an exception other than a `WebSocketBridgeError`. -/
def Escapes {α : Type} : Except Raised α → Prop
  | .ok _ => False
  | .error (.bridge _) => False
  | .error _ => True

variable {cfg x r pool} {payload : List (PyStr × Json)} {source : Source}

/-- An attempt that nobody catches. -/
lemma useSource_of_uncaught (h : ¬(x.outcome source).Caught) :
    ∃ e, (useSource cfg x r payload source).1 = .raised (.exc e) := by
  have hused : ∀ u : Usage, ¬u.outcome.Caught →
      ∃ e, (useRecorded cfg payload u).1 = .raised (.exc e) := by
    intro u hu
    rw [Usage.outcome] at hu
    rw [useRecorded]
    cases hsend : u.send with
    | some e => simp [hsend, BridgeOutcome.Caught] at hu
    | none =>
        cases hrecv : u.recv with
        | ok m => simp [hsend, hrecv, BridgeOutcome.Caught] at hu
        | error e =>
            rw [hsend, hrecv] at hu
            cases e with
            | timeout | os name | webSocket name => exact absurd trivial hu
            | other name => exact ⟨_, rfl⟩
  cases source with
  | reused entry => exact hused _ h
  | fresh i =>
      have hopen : ¬(x.fresh i).outcome.Caught := h
      rw [Opening.outcome] at hopen
      rw [useSource]
      cases hconnect : (x.fresh i).connect with
      | some e => simp [hconnect, BridgeOutcome.Caught] at hopen
      | none =>
          rw [hconnect] at hopen
          exact hused _ hopen

/-- What an attempt comes to, in terms of its outcome. -/
lemma isFailed_useSource_iff : (useSource cfg x r payload source).1.isFailed = true ↔
    (x.outcome source).failure ≠ none ∧ (x.outcome source).Caught := by
  by_cases hcaught : (x.outcome source).Caught
  · cases hfailure : (x.outcome source).failure with
    | none =>
        obtain ⟨message, hmessage⟩ := failure_eq_none_iff.mp hfailure
        rw [(useSource_of_received hmessage).1]
        simp [Attempt.isFailed]
    | some code =>
        obtain ⟨err, herr, -⟩ := (@useSource_of_failure cfg x r payload source _ _ hcaught
          hfailure).raises
        rw [herr]
        simp [Attempt.isFailed, hcaught]
  · obtain ⟨e, he⟩ := @useSource_of_uncaught cfg x r payload source hcaught
    rw [he]
    simp [Attempt.isFailed, hcaught]

/-- What the attempts of a call come to. -/
lemma results_attempts (hbody : buildResponseCreateRequest cfg.runtime.depth r.body = .ok payload)
    (i : ℕ) :
    results (recorded (attemptBridge cfg x r pool.isSome)) 1 (⟨pool.getD .empty, 0⟩, []) i
      = (useSource cfg x r payload (takenAt cfg x r pool i).source).1.map
          fun message => ((takenAt cfg x r pool i).source, message) := by
  rw [results_recorded, results_attemptBridge hbody]
  rfl

/-- They fail where they fail with an exception that is caught. -/
lemma isFailed_attempts_iff
    (hbody : buildResponseCreateRequest cfg.runtime.depth r.body = .ok payload) (i : ℕ) :
    (results (recorded (attemptBridge cfg x r pool.isSome)) 1 (⟨pool.getD .empty, 0⟩, [])
        i).isFailed = true ↔
      (outcomeAt cfg x r pool i).failure ≠ none ∧ (outcomeAt cfg x r pool i).Caught := by
  rw [outcomeAt, ← @isFailed_useSource_iff cfg x r payload, results_attempts hbody]
  cases (useSource cfg x r payload (takenAt cfg x r pool i).source).1 <;> rfl

/-- A call whose body is refused. -/
lemma escapes_of_refused {e : Raised}
    (hbody : buildResponseCreateRequest cfg.runtime.depth r.body = .error e) :
    Escapes (openBridgeRecorded cfg x r pool).1 ↔ Uncaught cfg x r pool := by
  rw [Uncaught, hbody]
  rcases Nat.eq_zero_or_pos cfg.settings.upstreamMaxAttempts with hzero | hpos
  · have hcall : (openBridgeRecorded cfg x r pool).1
        = .error (.bridge { firstMessageTimeout cfg with attempts := 0 }) := by
      rw [openBridgeRecorded, hzero]
      rfl
    rw [hcall]
    cases e <;> simp [Escapes, hzero]
  · obtain ⟨n, hn⟩ := Nat.exists_eq_succ_of_ne_zero (Nat.ne_zero_of_lt hpos)
    rw [openBridgeRecorded, hn, run, recorded, attemptBridge, hbody]
    cases e <;> simp [Escapes]

/-- **The call raises what nobody catches** just when an attempt does. -/
theorem escapes_openBridgeRecorded_iff :
    Escapes (openBridgeRecorded cfg x r pool).1 ↔ Uncaught cfg x r pool := by
  cases hbody : buildResponseCreateRequest cfg.runtime.depth r.body with
  | error e => exact escapes_of_refused hbody
  | ok payload =>
      rw [Uncaught, hbody]
      dsimp only
      set step := recorded (attemptBridge cfg x r pool.isSome) with hstep
      set s : Sockets × List AttemptLog := (⟨pool.getD .empty, 0⟩, []) with hs
      have hfailed : ∀ i, (results step 1 s i).isFailed = true ↔
          (outcomeAt cfg x r pool i).failure ≠ none ∧ (outcomeAt cfg x r pool i).Caught :=
        isFailed_attempts_iff hbody
      rcases forall_failed_or_first (results step 1 s) cfg.settings.upstreamMaxAttempts with
        hall | ⟨i, hi, hstop, hbefore⟩
      -- every attempt fails with what is caught
      · have hrun := (run_of_forall _ 1 s (firstMessageTimeout cfg) hall).1
        refine iff_of_false ?_ fun ⟨i, hi, hcaught, _⟩ => hcaught ((hfailed i).mp (hall i hi)).2
        rw [openBridgeRecorded, ← hstep, ← hs]
        cases hcall : run step cfg.settings.upstreamMaxAttempts 1 s (firstMessageTimeout cfg) with
        | mk outcome p =>
            rw [hcall] at hrun
            cases outcome with
            | failed e => exact id
            | _ => exact absurd hrun Bool.false_ne_true
      -- the first attempt that does not: a message, or what nobody catches
      · have hnot : ¬((outcomeAt cfg x r pool i).failure ≠ none ∧
            (outcomeAt cfg x r pool i).Caught) := fun h => by simp [(hfailed i).mpr h] at hstop
        have hfirst : ∀ j < i, (outcomeAt cfg x r pool j).failure ≠ none ∧
            (outcomeAt cfg x r pool j).Caught := fun j hj => (hfailed j).mp (hbefore j hj)
        rw [openBridgeRecorded, ← hstep, ← hs, run_of_first hi 1 s (firstMessageTimeout cfg) hstop
          hbefore, hstep, hs, results_attempts hbody]
        by_cases hcaught : (outcomeAt cfg x r pool i).Caught
        · obtain ⟨message, hmessage⟩ : ∃ message, outcomeAt cfg x r pool i = .received message := by
            rw [← failure_eq_none_iff]
            by_contra hfailure
            exact hnot ⟨hfailure, hcaught⟩
          rw [(useSource_of_received hmessage).1]
          refine iff_of_false id fun ⟨k, _, huncaught, hbefore'⟩ => ?_
          obtain rfl := first_unique hnot hfirst (fun h => huncaught h.2) hbefore'
          exact huncaught hcaught
        · obtain ⟨e, he⟩ := @useSource_of_uncaught cfg x r payload _ hcaught
          rw [he]
          exact iff_of_true trivial ⟨i, hi, hcaught, hfirst⟩

/-- The attempt log that a call starts with. -/
lemma logs_start (hbody : buildResponseCreateRequest cfg.runtime.depth r.body = .ok payload)
    (hpos : 0 < cfg.settings.upstreamMaxAttempts) :
    (openBridgeRecorded cfg x r pool).2.2.head?
      = some (attemptLog cfg x r payload (takenAt cfg x r pool 0)) := by
  obtain ⟨n, hn⟩ := Nat.exists_eq_succ_of_ne_zero (Nat.ne_zero_of_lt hpos)
  set step := attemptBridge cfg x r pool.isSome with hstep
  have hrun : (step 1 ⟨pool.getD .empty, 0⟩).2.2 <+: (run (recorded step) (n + 1) 1
      (⟨pool.getD .empty, 0⟩, []) (firstMessageTimeout cfg)).2.2 := first_prefix_run n 1 _ _
  have hlogs : (openBridgeRecorded cfg x r pool).2.2 = (run (recorded step) (n + 1) 1
      (⟨pool.getD .empty, 0⟩, []) (firstMessageTimeout cfg)).2.2 := by
    rw [openBridgeRecorded, hn, ← hstep]
    cases run (recorded step) (n + 1) 1 (⟨pool.getD .empty, 0⟩, []) (firstMessageTimeout cfg) with
    | mk outcome p => cases outcome <;> rfl
  rw [hstep, attemptBridge_eq hbody] at hrun
  obtain ⟨rest, hrest⟩ := hrun
  rw [hlogs, ← hrest]
  rfl

/-- An idle connection is taken under the key it was filed under. -/
lemma key_of_reused {usable : Idle → Bool} {key : WebSocketPoolKey} {pooled : Bool} {s : Sockets}
    {entry : Idle} (h : (takeSource usable key pooled s).source = .reused entry) :
    entry.key = key := by
  rw [takeSource] at h
  split_ifs at h
  dsimp only at h
  cases hselected : (s.pool.checkout usable key).selected with
  | none => simp [hselected] at h
  | some e =>
      obtain rfl : e = entry := by simpa [hselected] using h
      have hmem : e ∈ (s.pool.checkout usable key).selected.toList := by simp [hselected]
      exact Pool.key_of_mem_checkout (List.mem_append_left _ hmem)

/-- **The first attempt tells the URL**: it connects to it, or takes a connection that
is filed under it. -/
theorem url_of_attemptLog {r' : Request} {payload' : List (PyStr × Json)}
    (h : attemptLog cfg x r payload (takenAt cfg x r pool 0)
      = attemptLog cfg x r' payload' (takenAt cfg x r' pool 0)) : r.url = r'.url := by
  have hsource : (takenAt cfg x r pool 0).source = (takenAt cfg x r' pool 0).source :=
    congrArg AttemptLog.source h
  have hevents := congrArg AttemptLog.events h
  rw [attemptLog, attemptLog, hsource] at hevents
  dsimp only at hevents
  cases hcase : (takenAt cfg x r' pool 0).source with
  | reused entry =>
      have hkey : entry.key = r.key cfg := key_of_reused (hsource.trans hcase)
      have hkey' : entry.key = r'.key cfg := key_of_reused hcase
      exact congrArg WebSocketPoolKey.url (hkey.symm.trans hkey')
  | fresh i =>
      have hconnect : ∀ (r : Request) payload, (useSource cfg x r payload (.fresh i)).2.head?
          = some (.connect r.url r.headers) := by
        intro r payload
        rw [useSource]
        cases (x.fresh i).connect <;> rfl
      rw [hcase] at hevents
      have hhead := congrArg List.head? hevents
      rw [hconnect, hconnect] at hhead
      exact (ConnEvent.connect.inj (Option.some.inj hhead)).1

/-- A call without an attempt does not depend on where it goes. -/
lemma openBridgeRecorded_of_noAttempt {r' : Request} (hbody : r.body = r'.body)
    (h : cfg.settings.upstreamMaxAttempts = 0 ∨
      ∃ e, buildResponseCreateRequest cfg.runtime.depth r'.body = .error e) :
    openBridgeRecorded cfg x r pool = openBridgeRecorded cfg x r' pool := by
  rcases Nat.eq_zero_or_pos cfg.settings.upstreamMaxAttempts with hzero | hpos
  · rw [openBridgeRecorded, openBridgeRecorded, hzero]
    rfl
  · obtain ⟨e, he⟩ := h.resolve_left (Nat.ne_zero_of_lt hpos)
    obtain ⟨n, hn⟩ := Nat.exists_eq_succ_of_ne_zero (Nat.ne_zero_of_lt hpos)
    rw [openBridgeRecorded, openBridgeRecorded, hn, run, run, recorded, recorded, attemptBridge,
      attemptBridge, hbody, he]
    cases e <;> rfl

end Bridge

end CodexResetProxy
