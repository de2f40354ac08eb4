import CodexResetProxy.Mitm.SocksRuns

/-!
What a connection of a SOCKS5 client comes to, along every run.

* `relays_of_path`: who is connected to, and what each side gets.
* `losesNothing_iff`: **when both sides get all that the other has sent**.
-/

namespace CodexResetProxy

open PyStr ByteStr Duplex Transition Socks5

namespace SocksMitm

open Tunnel (Direction Flow Move)

variable {cfg : Config} {idna : Idna.Tables} {unquote : PyStr → PyStr} {flows : Direction → Flow}
  {target : SocksTarget} {f : Flow}

/-! ### Runs -/

variable {s : State} {l : List (State × Event)}

/-- What holds of a connection holds in every reachable state. -/
theorem holds_of_path (h : (socksClient cfg idna unquote).Path (socksClient cfg idna unquote).init
    l s) : s.Holds cfg idna unquote := by
  refine h.invariant_of_steps (I := State.Holds cfg idna unquote) (P := fun _ _ => True)
    (fun s e t hs _ hstep => hs.step hstep) ?_ fun _ _ => trivial
  refine ⟨⟨⟨⟨rfl, rfl, fun h => ?_⟩, ⟨rfl, rfl, fun h => ?_⟩, rfl, rfl⟩, ⟨rfl, rfl, rfl⟩,
    [], rfl, fun k _ => ?_⟩, rfl⟩
  · exact absurd h Bool.false_ne_true
  · exact absurd h Bool.false_ne_true
  · rw [Result.after_nil]
    rfl

/-- What a connection does with the bytes of its client and of its upstream.

* Until the client has asked for a target, nobody is connected to and nothing is sent to
  an upstream.
* A target is one that the client has named in its opening, and the client has been told
  that it is served.
* A connection that is intercepted connects to nobody, and leaves what the client sends
  after its opening unread; any other connects to the address of its target, or of the
  proxy, and to no other.
* Through a tunnel the client gets what the upstream sends after the handshake, and the
  upstream what the client sends after its opening: each a part of it, in order, and
  nothing else. -/
structure Relays (cfg : Config) (idna : Idna.Tables) (unquote : PyStr → PyStr) (s : State) :
    Prop where
  unasked : s.phase.target? = none → s.dialled = none ∧ (s.flows .toUpstream).got = []
  named : ∀ target, s.phase.target? = some target → ∃ o : Opening,
    o.bytes <+: (s.flows .toUpstream).sent ∧ Names idna o.endpoint.address target.host ∧
      target.port = o.endpoint.port ∧ granted <+: (s.flows .toClient).got
  dialled : ∀ target, s.phase.target? = some target → s.dialled =
    if shouldMitm cfg target then none
    else (Outbound.dialAddress cfg target.host target.port).toOption
  intercepted : ∀ target, s.phase = .intercepting target → shouldMitm cfg target = true ∧
    (s.flows .toUpstream).got = [] ∧
      ∃ o : Opening, (s.flows .toUpstream).sent = o.bytes ++ (s.flows .toUpstream).rest
  piped : ∀ target, s.phase = .piping target → ∃ (o : Opening) (answered asked fromClient
      fromUpstream : Bytes), Agreed cfg idna unquote target answered asked ∧
    (s.flows .toUpstream).sent = o.bytes ++ fromClient ∧
    (s.flows .toClient).sent = answered ++ fromUpstream ∧
    (s.flows .toUpstream).delivered <+: asked ++ fromClient ∧
    (s.flows .toClient).delivered <+: granted ++ fromUpstream

/-- What a direction has carried. -/
lemma carried {before written : Bytes} (h : f.Carries before written) :
    ∃ more, f.sent = before ++ more ∧ f.delivered <+: written ++ more := by
  obtain ⟨moved, hsent, hgot⟩ := h
  refine ⟨moved ++ f.rest, by rw [hsent, List.append_assoc], ?_⟩
  rw [← List.append_assoc, ← hgot, Flow.got, List.append_assoc]
  exact List.prefix_append _ _

/-- A target is named by the opening of the client. -/
lemma Phase.Holds.opening {phase : Phase} (h : phase.Holds cfg idna unquote flows)
    (htarget : phase.target? = some target) : ∃ o, Asks idna o target ∧
      o.bytes <+: (flows .toUpstream).sent ∧ granted <+: (flows .toClient).got := by
  have hnamed : Named idna target flows → ∃ o, Asks idna o target ∧
      o.bytes <+: (flows .toUpstream).sent ∧ granted <+: (flows .toClient).got := by
    rintro ⟨⟨o, hasks, hsent⟩, htold⟩
    exact ⟨o, hasks, ⟨_, hsent.symm⟩, htold ▸ List.prefix_refl _⟩
  cases phase with
  | shaking p => cases htarget
  | dialling target' | intercepting target' =>
      obtain rfl := Option.some.inj htarget
      exact hnamed h.2.2
  | asking target' p | attaching target' =>
      obtain rfl := Option.some.inj htarget
      exact hnamed h.2.1
  | piping target' =>
      obtain rfl := Option.some.inj htarget
      obtain ⟨-, o, answered, asked, hasks, -, ⟨moved, hsent, -⟩, moved', -, hgot⟩ := h
      refine ⟨o, hasks, ⟨moved ++ (flows .toUpstream).rest, ?_⟩, moved', hgot.symm⟩
      rw [hsent, List.append_assoc]

/-- **A connection relays**, in every run: whatever is sent, and however it arrives. -/
theorem relays_of_path (h : (socksClient cfg idna unquote).Path (socksClient cfg idna unquote).init
    l s) : Relays cfg idna unquote s := by
  obtain ⟨hsaid, hdials⟩ := holds_of_path h
  obtain ⟨phase, ended, dialled, flows⟩ := s
  refine ⟨?_, ?_, ?_, ?_, ?_⟩
  -- as long as there is no target, nothing is dialled
  · intro hnone
    cases phase with
    | shaking p => exact ⟨hdials, hsaid.2.1.got⟩
    | _ => cases hnone
  · intro target htarget
    obtain ⟨o, ⟨hhost, hport⟩, hsent, htold⟩ := hsaid.opening htarget
    exact ⟨o, hsent, names_hostText hhost, hport, htold⟩
  · intro target htarget
    cases phase with
    | shaking p => cases htarget
    | intercepting target' =>
        obtain rfl := Option.some.inj htarget
        rw [if_pos hdials.2]
        exact hdials.1
    | dialling target' | asking target' p | attaching target' | piping target' =>
        obtain rfl := Option.some.inj htarget
        obtain ⟨hmitm, hdialled⟩ := hdials
        rw [hmitm]
        exact hdialled
  -- a tunnel: both directions carry what came after the handshakes
  · rintro target rfl
    obtain ⟨-, hsilent, ⟨o, -, hsent⟩, -⟩ := hsaid
    exact ⟨hdials.2, hsilent.got, o, hsent⟩
  · rintro target rfl
    obtain ⟨-, o, answered, asked, -, hagreed, hup, hdown⟩ := hsaid
    obtain ⟨fromClient, hclient, hdelivered⟩ := carried hup
    obtain ⟨fromUpstream, hupstream, hdelivered'⟩ := carried hdown
    exact ⟨o, answered, asked, fromClient, fromUpstream, hagreed, hclient, hupstream, hdelivered,
      hdelivered'⟩

/-- A client asks for a target, and sends a byte at once; the upstream answers and
half-closes. -/
def sampleSession : List Event :=
  [.flow .toUpstream (.send [0x05, 1, 0x00, 0x05, 0x01, 0, 0x03, 1, 0x61, 0x01, 0xbb, 7]),
    .flow .toUpstream (.arrive 12), .act 2, .act 0, .act 1, .act 0, .act 0, .act 4, .act 0, .act 1,
    .act 0, .act 1, .act 0, .act 2, .act 0, .act 0, .proceed, .connected, .flow .toUpstream .pipe,
    .flow .toUpstream (.flush 1), .flow .toClient (.send [8, 9]), .flow .toClient .halfClose,
    .flow .toClient (.arrive 2), .flow .toClient .arriveEof, .flow .toClient .pipe,
    .flow .toClient .pipe, .flow .toClient (.flush 14), .stop .toClient, .flow .toUpstream .pipe,
    .stop .toUpstream]

/-- The connection of the sample, at its end. -/
lemma exists_sampleSession :
    ∃ s, (socksClient sampleConfig sampleIdna id).exec (socksClient sampleConfig sampleIdna id).init
        sampleSession = some s ∧ s.phase = .piping ⟨[0x61], 443⟩ ∧
      s.dialled = some ([0x61], 443) ∧
      s.flows .toUpstream = { sent := [0x05, 1, 0x00, 0x05, 0x01, 0, 0x03, 1, 0x61, 0x01, 0xbb, 7],
                              stopped := true, fed := true, closed := true, delivered := [7] } ∧
      s.flows .toClient = { sent := [8, 9], eof := true, stopped := true, fed := true,
                            closed := true, delivered := granted ++ [8, 9] } := by
  have hphases : ((socksClient sampleConfig sampleIdna id).exec
      (socksClient sampleConfig sampleIdna id).init sampleSession).map
        (fun s => (s.phase.tunnels, s.phase.target?, s.dialled))
      = some (true, some ⟨[0x61], 443⟩, some ([0x61], 443)) := by decide +kernel
  have hflows : ((socksClient sampleConfig sampleIdna id).exec
      (socksClient sampleConfig sampleIdna id).init sampleSession).map
        (fun s => (s.flows .toUpstream, s.flows .toClient))
      = some ({ sent := [0x05, 1, 0x00, 0x05, 0x01, 0, 0x03, 1, 0x61, 0x01, 0xbb, 7],
                stopped := true, fed := true, closed := true, delivered := [7] },
              { sent := [8, 9], eof := true, stopped := true, fed := true, closed := true,
                delivered := granted ++ [8, 9] }) := by decide +kernel
  obtain ⟨s, hs, hphase⟩ := Option.map_eq_some_iff.mp hphases
  rw [hs, Option.map_some, Option.some.injEq] at hflows
  obtain ⟨hup, hdown⟩ := Prod.mk.inj hflows
  obtain ⟨htunnels, hrest⟩ := Prod.mk.inj hphase
  obtain ⟨htarget, hdialled⟩ := Prod.mk.inj hrest
  refine ⟨s, hs, ?_, hdialled, hup, hdown⟩
  obtain ⟨phase, ended, dialled, flows⟩ := s
  cases phase with
  | piping target => exact congrArg Phase.piping (Option.some.inj htarget)
  | _ => cases htunnels

/-- A connection that relays, of a client that sends early. -/
theorem relays_sampleSession :
    ∃ l s, (socksClient sampleConfig sampleIdna id).Path
        (socksClient sampleConfig sampleIdna id).init l s ∧
      s.dialled = some ([0x61], 443) ∧ Relays sampleConfig sampleIdna id s := by
  obtain ⟨s, hs, -, hdialled, -⟩ := exists_sampleSession
  exact ⟨_, s, System.Path.of_exec hs, hdialled, relays_of_path (System.Path.of_exec hs)⟩

/-! ### Losses -/

/-- What a step takes from no one, as in a tunnel. -/
def Harmless (s : State) : Event → Prop
  | .flow d m => Tunnel.Harmless s.flows (.flow d m)
  | .stop d => Tunnel.Harmless s.flows (.stop d)
  | _ => True

instance : ∀ (s : State) (e : Event), Decidable (Harmless s e)
  | s, .flow d m => inferInstanceAs (Decidable (Tunnel.Harmless s.flows (.flow d m)))
  | s, .stop d => inferInstanceAs (Decidable (Tunnel.Harmless s.flows (.stop d)))
  | _, .act _ => isTrue trivial
  | _, .endOfStream => isTrue trivial
  | _, .proceed => isTrue trivial
  | _, .connected => isTrue trivial
  | _, .attached => isTrue trivial
  | _, .gathered => isTrue trivial
  | _, .raised => isTrue trivial

/-- Before the tunnel nothing is lost. -/
lemma Unpiped.not_lost (h : Unpiped flows) (d : Direction) : ¬(flows d).Lost := by
  rintro ⟨hstopped, -⟩
  cases d with
  | toUpstream => exact absurd hstopped (by simp [h.toUpstream.stopped])
  | toClient => exact absurd hstopped (by simp [h.toClient.stopped])

lemma Phase.Holds.unpiped {phase : Phase} (h : phase.Holds cfg idna unquote flows)
    (hphase : phase.tunnels = false) : Unpiped flows := by
  cases phase with
  | piping target => cases hphase
  | _ => exact h.1

lemma State.flows_serve (s : State) (target : SocksTarget) :
    (s.serve cfg target).flows = s.flows := by
  rw [State.serve]
  split_ifs
  · rfl
  · split <;> rfl

lemma State.flows_of_endOfStream {t : State} (h : s.endOfStream = some t) :
    t.flows = s.flows := by
  rw [State.endOfStream] at h
  split at h
  · split_ifs at h
    obtain ⟨q, -, rfl⟩ := Option.map_eq_some_iff.mp h
    rfl
  · split_ifs at h
    obtain ⟨q, -, rfl⟩ := Option.map_eq_some_iff.mp h
    rfl
  · cases h

lemma State.flows_of_proceed {t : State} (h : s.proceed cfg = some t) : t.flows = s.flows := by
  rw [State.proceed] at h
  split at h <;> cases h
  · exact s.flows_serve _
  all_goals rfl

lemma State.flows_of_connect {t : State} (h : s.connect cfg idna unquote = some t) :
    t.flows = s.flows := by
  rw [State.connect] at h
  split at h
  · split at h <;> cases h <;> rfl
  · cases h

/-- A handshake goes on, before and after. -/
lemma State.tunnels_of_act {t : State} {n : ℕ} (h : s.act n = some t) :
    s.phase.tunnels = false ∧ t.phase.tunnels = false := by
  obtain ⟨phase, ended, dialled, flows⟩ := s
  cases phase with
  | shaking p | asking target p =>
      obtain ⟨x, -, rfl⟩ := Option.map_eq_some_iff.mp h
      exact ⟨rfl, rfl⟩
  | _ => cases h

/-- What a step is to the streams: one of a tunnel, one before there is a tunnel, or none. -/
inductive StreamStep (s t : State) : Event → Prop
  | flow {d : Direction} {m : Move} (hflows : Tunnel.step s.flows (.flow d m) = some t.flows) :
      StreamStep s t (.flow d m)
  | stop {d : Direction} (hflows : Tunnel.step s.flows (.stop d) = some t.flows) :
      StreamStep s t (.stop d)
  | act {n : ℕ} (hs : s.phase.tunnels = false) (ht : t.phase.tunnels = false) :
      StreamStep s t (.act n)
  | inner {e : Event} (hharmless : Harmless s e) (hflows : t.flows = s.flows) : StreamStep s t e

/-- Only the streams matter. -/
lemma streamStep_of_step {t : State} {e : Event} (hstep : step cfg idna unquote s e = some t) :
    StreamStep s t e := by
  cases step_move hstep with
  | flow _ hmove => exact .flow (by simp [Tunnel.step, hmove])
  | stop _ _ hstop => exact .stop hstop
  | act _ hact =>
      obtain ⟨hs, ht⟩ := State.tunnels_of_act hact
      exact .act hs ht
  | endOfStream _ hend => exact .inner trivial (State.flows_of_endOfStream hend)
  | proceed _ hproceed => exact .inner trivial (State.flows_of_proceed hproceed)
  | connected _ hconnect => exact .inner trivial (State.flows_of_connect hconnect)
  | attached => exact .inner trivial rfl
  | gathered => exact .inner trivial rfl
  | raised => exact .inner trivial rfl

/-- **A step loses something** just when it is not harmless. -/
lemma lost_step {t : State} {e : Event} (h : s.Holds cfg idna unquote)
    (hstep : step cfg idna unquote s e = some t) :
    (∃ d, (t.flows d).Lost) ↔ (∃ d, (s.flows d).Lost) ∨ ¬Harmless s e := by
  cases streamStep_of_step hstep with
  | flow hflows => exact Tunnel.lost_step hflows
  | stop hflows => exact Tunnel.lost_step hflows
  | act hs ht =>
      -- nothing is lost before the tunnel
      have hs' := (h.said.unpiped hs).not_lost
      have ht' := ((h.step hstep).said.unpiped ht).not_lost
      simp [hs', ht', Harmless]
  | inner hharmless hflows =>
      rw [hflows]
      simp [hharmless]

lemma lost_of_path (h : (socksClient cfg idna unquote).Path (socksClient cfg idna unquote).init
    l s) : (∃ d, (s.flows d).Lost) ↔ ∃ x ∈ l, ¬Harmless x.1 x.2 := by
  generalize hinit : (socksClient cfg idna unquote).init = init at h
  induction h with
  | nil =>
      subst hinit
      exact iff_of_false (fun ⟨d, hlost⟩ => Bool.false_ne_true hlost.1) (by simp)
  | @snoc t u l e hprev hstep ih =>
      subst hinit
      rw [lost_step (holds_of_path hprev) hstep, ih]
      simp [or_and_right, exists_or]

/-- **When a connection loses nothing**: at the rest of its tunnel, the upstream has got
all that the client sent after its opening, and the client all that the upstream sent
after the handshake, just when no step took something. -/
theorem losesNothing_iff
    (h : (socksClient cfg idna unquote).Path (socksClient cfg idna unquote).init l s)
    {target : SocksTarget} (hphase : s.phase = .piping target) (hquiet : Tunnel.Quiet s.flows) :
    ∃ (o : Opening) (answered asked fromClient fromUpstream : Bytes),
      Agreed cfg idna unquote target answered asked ∧
      (s.flows .toUpstream).sent = o.bytes ++ fromClient ∧
      (s.flows .toClient).sent = answered ++ fromUpstream ∧
      (((s.flows .toUpstream).delivered = asked ++ fromClient ∧
          (s.flows .toClient).delivered = granted ++ fromUpstream) ↔
        ∀ x ∈ l, Harmless x.1 x.2) := by
  have hlost := not_congr (lost_of_path h)
  push Not at hlost
  obtain ⟨phase, ended, dialled, flows⟩ := s
  obtain rfl : phase = .piping target := hphase
  obtain ⟨horderly, o, answered, asked, -, hagreed, hup, hdown⟩ := (holds_of_path h).said
  -- at rest a direction has delivered all just when it has lost nothing
  have hrest : ∀ (d : Direction) {before written : Bytes}, (flows d).Carries before written →
      ((∃ moved, (flows d).sent = before ++ moved ∧ (flows d).delivered = written ++ moved) ↔
        ¬(flows d).Lost) := by
    intro d before written hcarries
    have hpipe := hquiet (.flow d .pipe) trivial
    have harrive := hquiet (.flow d (.arrive 1)) trivial
    have hflush := hquiet (.flow d (.flush 1)) trivial
    exact Flow.delivered_of_rest (horderly d) (by simpa [Tunnel.step, Flow.move] using hpipe)
      (by simpa [Tunnel.step] using harrive) (by simpa [Tunnel.step] using hflush) hcarries
  -- what each side sent after its handshake
  obtain ⟨fromClient, hclient, -⟩ := carried hup
  obtain ⟨fromUpstream, hupstream, -⟩ := carried hdown
  refine ⟨o, answered, asked, fromClient, fromUpstream, hagreed, hclient, hupstream, ?_⟩
  rw [← hlost]
  constructor
  · rintro ⟨hall, hall'⟩ d
    cases d with
    | toUpstream => exact (hrest _ hup).mp ⟨_, hclient, hall⟩
    | toClient => exact (hrest _ hdown).mp ⟨_, hupstream, hall'⟩
  · intro hnone
    obtain ⟨moved, hsent, hdelivered⟩ := (hrest _ hup).mpr (hnone .toUpstream)
    obtain ⟨moved', hsent', hdelivered'⟩ := (hrest _ hdown).mpr (hnone .toClient)
    obtain rfl := List.append_cancel_left (hclient.symm.trans hsent)
    obtain rfl := List.append_cancel_left (hupstream.symm.trans hsent')
    exact ⟨hdelivered, hdelivered'⟩

/-- A connection that loses nothing, though both streams are closed at its end. -/
theorem losesNothing_sampleSession :
    ∃ l s, (socksClient sampleConfig sampleIdna id).Path
        (socksClient sampleConfig sampleIdna id).init l s ∧
      ∃ (o : Opening) (answered asked fromClient fromUpstream : Bytes),
        Agreed sampleConfig sampleIdna id ⟨[0x61], 443⟩ answered asked ∧
        (s.flows .toUpstream).sent = o.bytes ++ fromClient ∧
        (s.flows .toClient).sent = answered ++ fromUpstream ∧
        (((s.flows .toUpstream).delivered = asked ++ fromClient ∧
            (s.flows .toClient).delivered = granted ++ fromUpstream) ↔
          ∀ x ∈ l, Harmless x.1 x.2) := by
  obtain ⟨s, hs, hphase, -, hup, hdown⟩ := exists_sampleSession
  have hquiet : Tunnel.Quiet s.flows := Tunnel.quiet_of_done fun d => by
    cases d <;> simp [hup, hdown]
  exact ⟨_, s, System.Path.of_exec hs, losesNothing_iff (System.Path.of_exec hs) hphase hquiet⟩

end SocksMitm

end CodexResetProxy
