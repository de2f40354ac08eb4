import CodexResetProxy.Bridge.Retries

/-!
A call of `open_websocket_bridge_with_retries` as a run of the system.

What `openWebsocketBridgeWithRetries` computes from a scene is what the steps of
a request come to when nothing else happens and the upstream does what the scene
says, so the results about calls are results about runs.

* `Scene.Fits`: a scene agrees with the connections that are idle.
* `Leads`: a request gets from one `await` to another by itself.
* `startAttempt_comes`: the steps of one attempt come to `openAttempt`.
* `path_of_call`: the steps of a request come to the result of the call.
-/

namespace CodexResetProxy

open Custody Transition Retry

variable (cfg : Config)

/-- A scene agrees with the idle connections: on which of them appear usable, and
on the message that waits on them, if there is one. -/
structure Scene.Fits (scene : Scene) (w : World) : Prop where
  opened : ∀ e ∈ w.pool.entries, e.conn < w.conns.next
  usable : ∀ e ∈ w.pool.entries, scene.usable e = w.isUsable cfg e
  recv : ∀ e ∈ w.pool.entries, ∀ a ∈ (w.conns.cell e.conn).unread.head?,
    (scene.idle e.conn).recv = .ok a.message

/-- A request gets from one place to another while nothing else happens, except
that messages arrive. -/
def Leads (r : Request) (x y : World × RequestPc) : Prop :=
  ∀ tasks : List Task, ∃ l,
    (bridge cfg).Path ⟨x.1, tasks ++ [.request r x.2]⟩ l ⟨y.1, tasks ++ [.request r y.2]⟩

variable {cfg} {scene : Scene} {r : Request} {w w' : World} {pc : RequestPc}

lemma Leads.refl (x : World × RequestPc) : Leads cfg r x x :=
  fun _ => ⟨[], .nil _⟩

lemma Leads.trans {x y z : World × RequestPc} (h : Leads cfg r x y) (h' : Leads cfg r y z) :
    Leads cfg r x z := by
  intro tasks
  obtain ⟨l, hl⟩ := h tasks
  obtain ⟨l', hl'⟩ := h' tasks
  exact ⟨l ++ l', hl.trans hl'⟩

/-- A step of the request. -/
lemma Leads.step {y : World × RequestPc} (outcome : Outcome)
    (h : requestStep cfg w r pc outcome = some (y.1, y.2, [])) : Leads cfg r (w, pc) y := by
  intro tasks
  refine ⟨_, .single (a := .run tasks.length outcome) ?_⟩
  simp [bridge, bridgeStep, taskStep, h]

/-- A message arrives. -/
lemma Leads.arrive {c : ℕ} (hc : c < w.conns.next) (message : Message) :
    Leads cfg r (w, pc)
      ({ w with conns := w.conns.set c ((w.conns.cell c).arrive message) }, pc) := by
  intro tasks
  refine ⟨_, .single (a := .arrive c message) ?_⟩
  simp [bridge, bridgeStep, hc]

/-! ### What a failed attempt leaves as it was -/

/-- The connections that were opened have the state and the messages they had. -/
structure Calm (w w' : World) : Prop where
  next : w.conns.next ≤ w'.conns.next
  now : w'.now = w.now
  socket : ∀ c < w.conns.next, (w'.conns.cell c).socket = (w.conns.cell c).socket
  unread : ∀ c < w.conns.next, (w'.conns.cell c).unread = (w.conns.cell c).unread

lemma Calm.refl (w : World) : Calm w w := ⟨le_rfl, rfl, fun _ _ => rfl, fun _ _ => rfl⟩

lemma Calm.trans {w₁ w₂ w₃ : World} (h : Calm w₁ w₂) (h' : Calm w₂ w₃) : Calm w₁ w₃ where
  next := h.next.trans h'.next
  now := h'.now.trans h.now
  socket c hc := (h'.socket c (hc.trans_le h.next)).trans (h.socket c hc)
  unread c hc := (h'.unread c (hc.trans_le h.next)).trans (h.unread c hc)

lemma Calm.did (w : World) (c : ℕ) (e : Event) : Calm w (w.did c e) := by
  refine ⟨le_rfl, rfl, fun d _ => ?_, fun d _ => ?_⟩ <;>
  · by_cases hd : d = c
    · subst hd
      simp [World.did, Conn.did]
    · simp [World.did, Store.set_cell_of_ne _ _ hd]

lemma Calm.push (w : World) (x : Conn) : Calm w { w with conns := w.conns.push x } := by
  refine ⟨Nat.le_succ _, rfl, fun d hd => ?_, fun d hd => ?_⟩ <;>
    simp [Store.push_cell_of_ne _ _ hd.ne]

/-- What an attempt that fails leaves of a world. -/
def Left (w w' : World) : Prop := Calm w w' ∧ w'.pool = w.pool

lemma Left.trans {w₁ w₂ w₃ : World} (h : Left w₁ w₂) (h' : Left w₂ w₃) : Left w₁ w₃ :=
  ⟨h.1.trans h'.1, h'.2.trans h.2⟩

lemma Left.did (w : World) (c : ℕ) (e : Event) : Left w (w.did c e) := ⟨.did w c e, rfl⟩

lemma Scene.Fits.calm (h : scene.Fits cfg w) (hcalm : Calm w w')
    (hpool : ∀ e ∈ w'.pool.entries, e ∈ w.pool.entries) : scene.Fits cfg w' := by
  refine ⟨fun e he => ?_, fun e he => ?_, fun e he a ha => ?_⟩
  · exact (h.opened e (hpool e he)).trans_le hcalm.next
  · rw [h.usable e (hpool e he), World.isUsable, World.isUsable, hcalm.now,
      hcalm.socket _ (h.opened e (hpool e he))]
  · rw [hcalm.unread _ (h.opened e (hpool e he))] at ha
    exact h.recv e (hpool e he) a ha

lemma Scene.Fits.left (h : scene.Fits cfg w) (hleft : Left w w') : scene.Fits cfg w' :=
  h.calm hleft.1 fun e he => by rwa [hleft.2] at he

/-- A checkout takes entries out, and so the scene fits what is left. -/
lemma Scene.Fits.checkout (h : scene.Fits cfg w) (key : WebSocketPoolKey) :
    scene.Fits cfg { w with pool := (w.pool.checkout (w.isUsable cfg) key).pool } := by
  refine h.calm ⟨le_rfl, rfl, fun _ _ => rfl, fun _ _ => rfl⟩ fun e he => ?_
  have hmoves := w.pool.checkout_perm (w.isUsable cfg) key
  exact hmoves.mem_iff.mpr (List.mem_append_right _ he)

/-! ### One attempt -/

/-- A request gets from `x` to what an attempt comes to: to the response head with
the first message, to the end of a failed attempt in a world of `Q`, or to the
end of the call. -/
def Comes (cfg : Config) (r : Request) (k : ℕ) (Q : World → Prop) (x : World × RequestPc) :
    BridgeAttempt → Prop
  | .done message => ∃ w o a, Leads cfg r x (w, .head o a) ∧ o.attempts = k ∧ a.message = message
  | .failed e => ∃ w, Leads cfg r x (attemptFailed cfg w r k e) ∧ Q w
  | .raised e => ∃ w, Leads cfg r x (w, .finished (some e))

variable {k : ℕ} {Q Q' : World → Prop} {x y : World × RequestPc} {outcome : BridgeAttempt}

lemma Comes.of_leads (hxy : Leads cfg r x y) (h : Comes cfg r k Q y outcome) :
    Comes cfg r k Q x outcome := by
  cases outcome with
  | done message =>
      obtain ⟨w, o, a, hl, h⟩ := h
      exact ⟨w, o, a, hxy.trans hl, h⟩
  | failed e =>
      obtain ⟨w, hl, h⟩ := h
      exact ⟨w, hxy.trans hl, h⟩
  | raised e =>
      obtain ⟨w, hl⟩ := h
      exact ⟨w, hxy.trans hl⟩

lemma Comes.mono (hQ : ∀ w, Q w → Q' w) (h : Comes cfg r k Q x outcome) :
    Comes cfg r k Q' x outcome := by
  cases outcome with
  | failed e =>
      obtain ⟨w, hl, h⟩ := h
      exact ⟨w, hl, hQ w h⟩
  | _ => exact h

/-- The stale entries are closed. -/
lemma closeStale_leads (selected : Option Idle) (stale : List Idle) (w : World) :
    ∃ w', Leads cfg r (closeStale w r k selected stale) (closeStale w' r k selected []) ∧
      Left w w' := by
  induction stale generalizing w with
  | nil => exact ⟨w, .refl _, .refl w, rfl⟩
  | cons entry stale ih =>
      obtain ⟨w', hl, hleft⟩ := ih (w.exit entry.conn)
      have hstep : Leads cfg r (closeStale w r k selected (entry :: stale))
          (closeStale (w.exit entry.conn) r k selected stale) :=
        .step .returned rfl
      exact ⟨w', hstep.trans hl, (Left.did w entry.conn .exited).trans hleft⟩

/-- An attempt on a connection, from the first `recv`. -/
lemma awaitingFirst_comes {o : Opened} {u : Usage} (ho : o.conn < w.conns.next)
    (hrecv : ∀ a ∈ (w.conns.cell o.conn).unread.head?, u.recv = .ok a.message)
    (hsend : u.send = none) :
    Comes cfg r o.attempts (Left w) (w, .awaitingFirst o) (useConnection cfg u) := by
  cases hunread : (w.conns.cell o.conn).unread with
  | cons a rest =>
      have hmessage : u.recv = .ok a.message := hrecv a (by simp [hunread])
      have hout : useConnection cfg u = .done a.message := by
        simp [useConnection, hsend, hmessage]
      rw [hout]
      exact ⟨w.take o.conn (.received r a) rest, o, a,
        .step .returned (by simp [requestStep, hunread]), rfl, rfl⟩
  | nil =>
      have hwaits : (w.conns.cell o.conn).waits = true := by simp [Conn.waits, hunread]
      cases hu : u.recv with
      | ok message =>
          -- the message arrives
          set a : Arrival := ⟨message, (w.conns.cell o.conn).log.length⟩ with ha
          set w₁ : World :=
            { w with conns := w.conns.set o.conn ((w.conns.cell o.conn).arrive message) } with hw₁
          have harrives : Leads cfg r (w, .awaitingFirst o) (w₁, .awaitingFirst o) :=
            .arrive ho message
          have hunread₁ : (w₁.conns.cell o.conn).unread = [a] := by
            simp [hw₁, Conn.arrive, hunread, ha]
          have hout : useConnection cfg u = .done message := by simp [useConnection, hsend, hu]
          rw [hout]
          exact ⟨w₁.take o.conn (.received r a) [], o, a,
            harrives.trans (.step .returned (by simp [requestStep, hunread₁])), rfl, rfl⟩
      | error e =>
          cases herr : firstMessageError? cfg e with
          | some err =>
              -- an exception that is caught: the context is closed
              have hout : useConnection cfg u = .failed err := by
                simp [useConnection, hsend, hu, herr]
              have hraised : Leads cfg r (w, .awaitingFirst o)
                  (w.exit o.conn, .closingAttempt o.attempts err) :=
                .step (.raised e) (by simp [requestStep, hwaits, herr])
              rw [hout]
              exact ⟨w.exit o.conn, hraised.trans (.step .returned rfl), .did w _ _⟩
          | none =>
              have hout : useConnection cfg u = .raised (.exc e) := by
                simp [useConnection, hsend, hu, herr]
              rw [hout]
              exact ⟨w, .step (.raised e) (by simp [requestStep, hwaits, herr])⟩

/-- An attempt on a connection, from the `send` of `response.create`. -/
lemma sendCreate_comes {o : Opened} {u : Usage} (ho : o.conn < w.conns.next)
    (hrecv : ∀ a ∈ (w.conns.cell o.conn).unread.head?, u.recv = .ok a.message) :
    Comes cfg r o.attempts (Left w) (sendCreate w r o) (useConnection cfg u) := by
  set w₁ := w.did o.conn (.send (.create r)) with hw₁
  have hleft₁ : Left w w₁ := .did w _ _
  cases hsend : u.send with
  | some e =>
      have hraised : Leads cfg r (sendCreate w r o)
          (w₁.exit o.conn, .closingAttempt o.attempts (openError e)) :=
        .step (.raised e) rfl
      rw [useConnection, hsend]
      exact ⟨w₁.exit o.conn, hraised.trans (.step .returned rfl), hleft₁.trans (.did w₁ _ _)⟩
  | none =>
      set w₂ := w₁.did o.conn (.sent (.create r)) with hw₂
      set w₃ := w₂.did o.conn .recv with hw₃
      have hleft₃ : Left w w₃ := (hleft₁.trans (.did w₁ _ _)).trans (.did w₂ _ _)
      have hsent : Leads cfg r (sendCreate w r o) (w₂, .sending o true) := .step .wrote rfl
      have hwaiting : Leads cfg r (sendCreate w r o) (w₃, .awaitingFirst o) :=
        hsent.trans (.step .returned rfl)
      have hrecv₃ : ∀ a ∈ (w₃.conns.cell o.conn).unread.head?, u.recv = .ok a.message := by
        rw [hleft₃.1.unread _ ho]
        exact hrecv
      have hcomes : Comes cfg r o.attempts (Left w₃) (w₃, .awaitingFirst o)
          (useConnection cfg u) :=
        awaitingFirst_comes (ho.trans_le hleft₃.1.next) hrecv₃ hsend
      exact (hcomes.of_leads hwaiting).mono fun _ => hleft₃.trans

/-- An attempt on a fresh connection. -/
lemma connecting_comes (o : Opening) :
    Comes cfg r k (Left w) (w, .connecting k) (openFresh cfg o) := by
  cases hconnect : o.connect with
  | some e =>
      have hraised : Leads cfg r (w, .connecting k) (w, .connectFailed k (openError e)) :=
        .step (.raised e) rfl
      rw [openFresh, hconnect]
      exact ⟨w, hraised.trans (.step .returned rfl), .refl w, rfl⟩
  | none =>
      set w₁ : World := { w with conns := w.conns.push r.connect } with hw₁
      have hopened : Leads cfg r (w, .connecting k) (sendCreate w₁ r ⟨w.conns.next, k, false⟩) :=
        .step .returned rfl
      have hunread : (w₁.conns.cell w.conns.next).unread = [] := by
        simp [hw₁, Request.connect, Conn.blank]
      have hcomes : Comes cfg r k (Left w₁) (sendCreate w₁ r ⟨w.conns.next, k, false⟩)
          (useConnection cfg o.usage) :=
        sendCreate_comes (o := ⟨w.conns.next, k, false⟩) (Nat.lt_succ_self _)
          (by simp [hunread])
      rw [openFresh, hconnect]
      exact (hcomes.of_leads hopened).mono fun _ => Left.trans ⟨.push w _, rfl⟩

/-- With a pool, the call and the world have the same one, and the scene fits. -/
def Meets (cfg : Config) (scene : Scene) (s : Sockets) (w : World) : Prop :=
  cfg.settings.websocketPoolEnabled = true → s.pool = w.pool ∧ scene.Fits cfg w

variable {s : Sockets}

/-- An attempt with a pool. -/
lemma pooledAttempt_comes {message : List (PyStr × Json)}
    (hbody : buildResponseCreateRequest cfg.runtime.depth r.body = .ok message)
    (hpooled : cfg.settings.websocketPoolEnabled = true) (hs : Meets cfg scene s w) :
    Comes cfg r k (Meets cfg scene (openAttempt cfg scene r true k s).2) (startAttempt cfg w r k)
      (openAttempt cfg scene r true k s).1 := by
  obtain ⟨hpool, hfits⟩ := hs hpooled
  have hcheckout : s.pool.checkout scene.usable (r.key cfg)
      = w.pool.checkout (w.isUsable cfg) (r.key cfg) := by
    rw [hpool]
    exact Pool.checkout_congr hfits.usable
  have hfits₁ := hfits.checkout (r.key cfg)
  have hmoves := w.pool.checkout_perm (w.isUsable cfg) (r.key cfg)
  set out := w.pool.checkout (w.isUsable cfg) (r.key cfg) with hout
  set w₁ : World := { w with pool := out.pool } with hw₁
  have hstart : startAttempt cfg w r k = closeStale w₁ r k out.selected out.stale := by
    simp [startAttempt, hbody, hpooled, hw₁, hout]
  -- the stale connections are closed, one step each
  obtain ⟨w₂, hclosed, hleft₂⟩ : ∃ w₂, Leads cfg r
      (closeStale w₁ r k out.selected out.stale) (closeStale w₂ r k out.selected []) ∧
      Left w₁ w₂ :=
    closeStale_leads out.selected out.stale w₁
  -- what a failed attempt leaves fits again
  have hmeets : ∀ n w', Left w₂ w' → Meets cfg scene ⟨out.pool, n⟩ w' := by
    intro n w' hleft _
    have hleft' : Left w₁ w' := hleft₂.trans hleft
    exact ⟨hleft'.2.symm, hfits₁.left hleft'⟩
  rw [hstart]
  refine Comes.of_leads hclosed ?_
  cases hselected : out.selected with
  | none =>
      have hattempt : openAttempt cfg scene r true k s
          = (openFresh cfg (scene.fresh s.opened), ⟨out.pool, s.opened + 1⟩) := by
        simp [openAttempt, hbody, hcheckout, hselected]
      rw [hattempt]
      exact (connecting_comes _).mono (hmeets _)
  | some entry =>
      -- an idle connection, whose first message is the one that the scene says
      have hattempt : openAttempt cfg scene r true k s
          = (useConnection cfg (scene.idle entry.conn), ⟨out.pool, s.opened⟩) := by
        simp [openAttempt, hbody, hcheckout, hselected]
      have hentry : entry ∈ w.pool.entries := by
        refine hmoves.mem_iff.mpr ?_
        simp [hselected]
      have hopened : entry.conn < w.conns.next := hfits.opened entry hentry
      have hrecv : ∀ a ∈ (w₂.conns.cell entry.conn).unread.head?,
          (scene.idle entry.conn).recv = .ok a.message := by
        rw [hleft₂.1.unread _ hopened]
        exact hfits.recv entry hentry
      have hcomes : Comes cfg r k (Left w₂) (sendCreate w₂ r ⟨entry.conn, k, true⟩)
          (useConnection cfg (scene.idle entry.conn)) :=
        sendCreate_comes (hopened.trans_le hleft₂.1.next) hrecv
      rw [hattempt]
      exact hcomes.mono (hmeets _)

/-- **The steps of an attempt** come to what `openAttempt` says. -/
theorem startAttempt_comes (hs : Meets cfg scene s w) :
    Comes cfg r k
      (Meets cfg scene (openAttempt cfg scene r cfg.settings.websocketPoolEnabled k s).2)
      (startAttempt cfg w r k)
      (openAttempt cfg scene r cfg.settings.websocketPoolEnabled k s).1 := by
  cases hbody : buildResponseCreateRequest cfg.runtime.depth r.body with
  | error e =>
      cases e with
      | bridge e =>
          simp only [openAttempt, startAttempt, hbody]
          exact ⟨w, .refl _⟩
      | _ =>
          simp only [openAttempt, startAttempt, hbody]
          exact ⟨w, .refl _⟩
  | ok message =>
      cases hpooled : cfg.settings.websocketPoolEnabled with
      | true => exact pooledAttempt_comes hbody hpooled hs
      | false =>
          have hstart : startAttempt cfg w r k = (w, .connecting k) := by
            simp [startAttempt, hbody, hpooled]
          have hattempt : openAttempt cfg scene r false k s
              = (openFresh cfg (scene.fresh s.opened), { s with opened := s.opened + 1 }) := by
            simp [openAttempt, hbody]
          rw [hstart, hattempt]
          exact (connecting_comes _).mono fun _ _ h => absurd h (by simp [hpooled])

/-! ### The call -/

/-- A request has come to the result of a call. -/
def Answers : RequestPc → Except Raised Bridge → Prop
  | .head o a, .ok b => o.attempts = b.attempts ∧ a.message = b.firstMessage
  | .finished (some e), .error e' => e = e'
  | _, _ => False

/-- What the call makes of the end of its loop. -/
def callResult (cfg : Config) : Attempt BridgeError Raised (ℕ × Message) → Except Raised Bridge
  | .done (attempt, message) => .ok ⟨attempt, message⟩
  | .failed e => .error (.bridge { e with attempts := cfg.settings.upstreamMaxAttempts })
  | .raised e => .error e

lemma openWebsocketBridgeWithRetries_eq (pool : Option Pool) :
    openWebsocketBridgeWithRetries cfg scene r pool
      = callResult cfg (run (openAttempt cfg scene r pool.isSome)
          cfg.settings.upstreamMaxAttempts 1 ⟨pool.getD .empty, 0⟩ (firstMessageTimeout cfg)).1 :=
  rfl

/-- After a failed attempt that was not the last, the next one starts. -/
lemma attemptFailed_leads (hk : k < cfg.settings.upstreamMaxAttempts) (e : BridgeError) :
    Leads cfg r (attemptFailed cfg w r k e) (startAttempt cfg w r (k + 1)) := by
  rw [attemptFailed, if_pos hk]
  split_ifs
  · exact .step .returned rfl
  · exact .refl _

/-- The request gets from `x` to the result that the loop gives with `n` attempts
left. -/
def LoopLeads (cfg : Config) (scene : Scene) (r : Request) (n k : ℕ) (s : Sockets)
    (last : BridgeError) (x : World × RequestPc) : Prop :=
  ∃ w pc, Leads cfg r x (w, pc) ∧ Answers pc (callResult cfg
    (run (openAttempt cfg scene r cfg.settings.websocketPoolEnabled) n k s last).1)

lemma LoopLeads.of_leads {n : ℕ} {last : BridgeError} (hxy : Leads cfg r x y)
    (h : LoopLeads cfg scene r n k s last y) : LoopLeads cfg scene r n k s last x := by
  obtain ⟨w, pc, hl, hanswers⟩ := h
  exact ⟨w, pc, hxy.trans hl, hanswers⟩

/-- One attempt, and what follows it if it fails. -/
lemma loopLeads_succ {n : ℕ} {last : BridgeError} (hs : Meets cfg scene s w)
    (hfailed : ∀ e t w', Meets cfg scene t w' →
      LoopLeads cfg scene r n (k + 1) t e (attemptFailed cfg w' r k e)) :
    LoopLeads cfg scene r (n + 1) k s last (startAttempt cfg w r k) := by
  have hattempt := startAttempt_comes (r := r) (k := k) hs
  rw [LoopLeads, run]
  cases hstep : openAttempt cfg scene r cfg.settings.websocketPoolEnabled k s with
  | mk outcome t =>
      rw [hstep] at hattempt
      cases outcome with
      | done message =>
          obtain ⟨w', o, a, hl, hanswers⟩ := hattempt
          exact ⟨w', .head o a, hl, hanswers⟩
      | raised e =>
          obtain ⟨w', hl⟩ := hattempt
          exact ⟨w', .finished (some e), hl, rfl⟩
      | failed e =>
          obtain ⟨w', hl, hmeets⟩ := hattempt
          exact (hfailed e t w' hmeets).of_leads hl

/-- The steps of a request from an attempt on that is not the last but `n`. -/
lemma startAttempt_loopLeads (n : ℕ) (hn : k + n = cfg.settings.upstreamMaxAttempts)
    (last : BridgeError) (hs : Meets cfg scene s w) :
    LoopLeads cfg scene r (n + 1) k s last (startAttempt cfg w r k) := by
  induction n generalizing k s w last with
  | zero =>
      refine loopLeads_succ hs fun e t w' _ => ?_
      have hlast : ¬k < cfg.settings.upstreamMaxAttempts := by omega
      rw [attemptFailed, if_neg hlast]
      exact ⟨w', _, .refl _, rfl⟩
  | succ n ih =>
      refine loopLeads_succ hs fun e t w' hmeets => ?_
      have hk : k < cfg.settings.upstreamMaxAttempts := by omega
      have hleft : k + 1 + n = cfg.settings.upstreamMaxAttempts := by omega
      exact (ih hleft e hmeets).of_leads (attemptFailed_leads hk e)

/-- The steps of a request from its start. -/
lemma startRequest_loopLeads (hs : Meets cfg scene s w) :
    LoopLeads cfg scene r cfg.settings.upstreamMaxAttempts 1 s (firstMessageTimeout cfg)
      (startRequest cfg w r) := by
  rw [startRequest]
  split_ifs with hzero
  · rw [LoopLeads, hzero]
    refine ⟨w, _, .refl _, ?_⟩
    simp [run, callResult, Answers, hzero]
  · obtain ⟨n, hn⟩ := Nat.exists_eq_succ_of_ne_zero hzero
    have hcount : 1 + n = cfg.settings.upstreamMaxAttempts := by omega
    rw [hn]
    exact startAttempt_loopLeads n hcount _ hs

/-- The pool that a front end hands to the call. -/
def State.callPool (cfg : Config) (s : State) : Option Pool :=
  if cfg.settings.websocketPoolEnabled then some s.world.pool else none

lemma opened_of_reachable {s : State} (h : (bridge cfg).Reachable s) :
    ∀ e ∈ s.world.pool.entries, e.conn < s.world.conns.next := by
  intro e he
  have hown : e.token ∈ s.own cfg := List.mem_append_right _ (List.mem_map_of_mem he)
  exact ((kept_of_reachable h).held e.token hown).1

/-- **A call is a run**: when a request comes in, and nothing else happens but
what the scene says of the upstream, the request comes to the result of the
call. -/
theorem path_of_call {s : State} (hs : (bridge cfg).Reachable s)
    (husable : ∀ e ∈ s.world.pool.entries, scene.usable e = s.world.isUsable cfg e)
    (hrecv : ∀ e ∈ s.world.pool.entries, ∀ a ∈ (s.world.conns.cell e.conn).unread.head?,
      (scene.idle e.conn).recv = .ok a.message)
    (url : PyStr) (rawHeaders : List (List UInt8 × List UInt8)) (body : ByteArray) :
    ∃ l w pc, (bridge cfg).Path s l
        ⟨w, s.tasks ++ [.request ⟨s.tasks.length, url, rawHeaders, body⟩ pc]⟩ ∧
      Answers pc (openWebsocketBridgeWithRetries cfg scene
        ⟨s.tasks.length, url, rawHeaders, body⟩ (s.callPool cfg)) := by
  set r : Request := ⟨s.tasks.length, url, rawHeaders, body⟩ with hr
  have hstart : (bridge cfg).Path s [(s, .request url rawHeaders body)]
      ⟨(startRequest cfg s.world r).1,
        s.tasks ++ [.request r (startRequest cfg s.world r).2]⟩ :=
    .single rfl
  have hsome : (s.callPool cfg).isSome = cfg.settings.websocketPoolEnabled := by
    cases hpooled : cfg.settings.websocketPoolEnabled <;> simp [State.callPool, hpooled]
  have hmeets : Meets cfg scene ⟨(s.callPool cfg).getD .empty, 0⟩ s.world := by
    intro hpooled
    exact ⟨by simp [State.callPool, hpooled], opened_of_reachable hs, husable, hrecv⟩
  obtain ⟨w, pc, hl, hanswers⟩ := startRequest_loopLeads (r := r) hmeets
  obtain ⟨l, hpath⟩ := hl s.tasks
  rw [openWebsocketBridgeWithRetries_eq, hsome]
  exact ⟨_, w, pc, hstart.trans hpath, hanswers⟩

end CodexResetProxy
