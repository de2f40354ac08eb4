import CodexResetProxy.Mitm.Handshake
import CodexResetProxy.Mitm.SocksClient

/-!
What holds of a connection of a SOCKS5 client at every moment.

* `Flow.Carries`: a direction that carries what follows a handshake.
* `Talks`: a handshake has said what its program says to what it has been sent.
* `Phase.Holds`: what has been said to whom in every phase; `State.Holds.step`: every
  step keeps it.
-/

namespace CodexResetProxy

open PyStr ByteStr Duplex Transition Socks5

/-! ### Directions -/

namespace Tunnel.Flow

/-- What has been written. -/
def got (f : Flow) : Bytes := f.delivered ++ f.outgoing

/-- What has been sent and is not read. -/
def rest (f : Flow) : Bytes := f.buffer ++ f.wire

/-- The direction carries what its source sends after `before`, behind `written`. -/
def Carries (f : Flow) (before written : Bytes) : Prop :=
  ∃ moved, f.sent = before ++ moved ++ f.rest ∧ f.got = written ++ moved

/-- The streams of a direction are used in order. -/
structure Orderly (f : Flow) : Prop where
  fed_of_stopped : f.stopped → f.fed
  done_of_fed : f.fed → f.stopped ∨ (f.eof ∧ f.wire = [])
  fed_of_closed : f.closed → f.fed ∧ f.buffer = []

/-- No loop has run. -/
structure Unused (f : Flow) : Prop where
  closed : f.closed = false
  stopped : f.stopped = false
  done_of_fed : f.fed → f.eof ∧ f.wire = []

variable {f g : Flow} {m : Move} {before written : Bytes}

lemma Unused.orderly (hf : f.Unused) : f.Orderly where
  fed_of_stopped := fun h => absurd h (by simp [hf.stopped])
  done_of_fed := fun h => .inr (hf.done_of_fed h)
  fed_of_closed := fun h => absurd h (by simp [hf.closed])

/-- What a move does that is not one of the loop: the source may send. -/
lemma move_cases (h : f.move m = some g) (hm : m ≠ .pipe) :
    ∃ more, g.sent = f.sent ++ more ∧ g.rest = f.rest ++ more ∧ g.got = f.got ∧
      (f.eof → more = []) ∧ (f.eof → g.eof) := by
  cases m with
  | pipe => exact absurd rfl hm
  | send bytes =>
      rw [move] at h
      split_ifs at h with heof
      obtain rfl := Option.some.inj h
      exact ⟨bytes, rfl, by simp [rest], rfl, fun h => absurd h heof, id⟩
  | halfClose =>
      rw [move] at h
      split_ifs at h with heof
      obtain rfl := Option.some.inj h
      exact ⟨[], by simp, by simp [rest], rfl, fun _ => rfl, fun _ => rfl⟩
  | arrive n =>
      rw [move] at h
      split_ifs at h with hno
      obtain rfl := Option.some.inj h
      exact ⟨[], by simp, by simp [rest], rfl, fun _ => rfl, id⟩
  | arriveEof =>
      rw [move] at h
      split_ifs at h with hno
      obtain rfl := Option.some.inj h
      exact ⟨[], by simp, by simp [rest], rfl, fun _ => rfl, id⟩
  | flush n =>
      rw [move] at h
      split_ifs at h with hno
      obtain rfl := Option.some.inj h
      exact ⟨[], by simp, by simp [rest], by simp [got], fun _ => rfl, id⟩

/-- A direction that no loop has run in. -/
lemma Unused.move (hf : f.Unused) (h : f.move m = some g) (hm : m ≠ .pipe) : g.Unused := by
  obtain ⟨hclosed, hstopped, hfed⟩ := hf
  cases m with
  | pipe => exact absurd rfl hm
  | send bytes =>
      rw [Flow.move] at h
      split_ifs at h with heof
      obtain rfl := Option.some.inj h
      exact ⟨hclosed, hstopped, fun hf => absurd (hfed hf).1 heof⟩
  | halfClose =>
      rw [Flow.move] at h
      split_ifs at h with heof
      obtain rfl := Option.some.inj h
      exact ⟨hclosed, hstopped, fun hf => ⟨rfl, (hfed hf).2⟩⟩
  | arrive n =>
      rw [Flow.move] at h
      split_ifs at h with hno
      obtain rfl := Option.some.inj h
      rw [not_or, not_or] at hno
      exact ⟨hclosed, hstopped, fun hf => absurd (hfed hf).2 hno.2.1⟩
  | arriveEof =>
      rw [Flow.move] at h
      split_ifs at h with hno
      obtain rfl := Option.some.inj h
      simp only [not_or, not_not] at hno
      exact ⟨hclosed, hstopped, fun _ => ⟨hno.2.2.1, hno.2.2.2⟩⟩
  | flush n =>
      rw [Flow.move] at h
      split_ifs at h with hno
      obtain rfl := Option.some.inj h
      exact ⟨hclosed, hstopped, hfed⟩

lemma Orderly.move (hf : f.Orderly) (h : f.move m = some g) : g.Orderly := by
  obtain ⟨hstopped, hfed, hclosed⟩ := hf
  cases m with
  | send bytes =>
      rw [Flow.move] at h
      split_ifs at h with heof
      obtain rfl := Option.some.inj h
      exact ⟨hstopped, fun hf => (hfed hf).imp_right fun hdone => absurd hdone.1 heof, hclosed⟩
  | halfClose =>
      rw [Flow.move] at h
      split_ifs at h with heof
      obtain rfl := Option.some.inj h
      exact ⟨hstopped, fun hf => (hfed hf).imp_right fun hdone => ⟨rfl, hdone.2⟩, hclosed⟩
  | arrive n =>
      rw [Flow.move] at h
      split_ifs at h with hno
      obtain rfl := Option.some.inj h
      rw [not_or, not_or] at hno
      -- nothing arrives after the end of the stream was fed
      have hnotFed : ¬f.fed := fun hf => (hfed hf).elim hno.1 fun hdone => hno.2.1 hdone.2
      exact ⟨hstopped, fun hf => absurd hf hnotFed, fun hc => absurd (hclosed hc).1 hnotFed⟩
  | arriveEof =>
      rw [Flow.move] at h
      split_ifs at h with hno
      obtain rfl := Option.some.inj h
      simp only [not_or, not_not] at hno
      exact ⟨fun _ => rfl, fun _ => .inr ⟨hno.2.2.1, hno.2.2.2⟩, fun hc => ⟨rfl, (hclosed hc).2⟩⟩
  | pipe =>
      obtain ⟨hopen, ⟨-, rfl⟩ | ⟨hbuffer, hf, rfl⟩⟩ := pipe_eq_some h
      · exact ⟨hstopped, hfed, fun hc => absurd hc (by simp [hopen])⟩
      · exact ⟨hstopped, hfed, fun _ => ⟨hf, hbuffer⟩⟩
  | flush n =>
      rw [Flow.move] at h
      split_ifs at h with hno
      obtain rfl := Option.some.inj h
      exact ⟨hstopped, hfed, hclosed⟩

lemma Orderly.stop (hf : f.Orderly) : f.stop.Orderly :=
  ⟨fun _ => rfl, fun _ => .inl rfl, fun hc => ⟨rfl, (hf.fed_of_closed hc).2⟩⟩

/-- **A direction goes on to carry** what its source sends. -/
theorem Carries.move (hf : f.Carries before written) (h : f.move m = some g) :
    g.Carries before written := by
  obtain ⟨moved, hsent, hgot⟩ := hf
  by_cases hm : m = .pipe
  · subst hm
    obtain ⟨-, ⟨-, rfl⟩ | ⟨-, -, rfl⟩⟩ := pipe_eq_some h
    · refine ⟨moved ++ f.buffer.take readSize, ?_, ?_⟩
      · simpa [rest, ← List.append_assoc (f.buffer.take readSize)] using hsent
      · rw [got, ← List.append_assoc, ← List.append_assoc, ← hgot, got]
    · exact ⟨moved, hsent, hgot⟩
  · obtain ⟨more, hsent', hrest, hgot', -⟩ := move_cases h hm
    exact ⟨moved, by rw [hsent', hsent, hrest, List.append_assoc], hgot'.trans hgot⟩

/-- At rest, everything that was read is delivered. -/
lemma delivered_of_rest (hs : f.Orderly) (hpipe : f.pipe = none)
    (harrive : f.move (.arrive 1) = none) (hflush : f.move (.flush 1) = none)
    (hf : f.Carries before written) :
    (∃ moved, f.sent = before ++ moved ∧ f.delivered = written ++ moved) ↔ ¬f.Lost := by
  have houtgoing : f.outgoing = [] := by simpa [Flow.move] using hflush
  have hwire : ¬f.stopped → f.wire = [] := by simpa [Flow.move] using harrive
  have hbuffer : f.buffer = [] := by
    rw [Flow.pipe] at hpipe
    split_ifs at hpipe with hclosed hbuffer
    · exact (hs.fed_of_closed hclosed).2
    · exact not_not.mp hbuffer
  obtain ⟨moved, hsent, hgot⟩ := hf
  rw [got, houtgoing, List.append_nil] at hgot
  rw [rest, hbuffer, List.nil_append] at hsent
  have hall : (∃ moved, f.sent = before ++ moved ∧ f.delivered = written ++ moved) ↔
      f.wire = [] := by
    constructor
    · rintro ⟨moved', hsent', hdelivered⟩
      obtain rfl := List.append_cancel_left (hgot.symm.trans hdelivered)
      exact List.self_eq_append_right.mp (hsent'.symm.trans hsent)
    · intro hnil
      exact ⟨moved, by rw [hsent, hnil, List.append_nil], hgot⟩
  rw [hall, Lost, not_and, not_not]
  exact ⟨fun h _ => h, fun h => by_cases h hwire⟩

end Tunnel.Flow

namespace SocksMitm

open Tunnel (Direction Flow Move)

/-! ### What has been said -/

/-- What the client is sent before its target is served. -/
def granted : Bytes := [0x05, 0x00] ++ succeeded

/-- The opening of a client names a target. -/
def Asks (idna : Idna.Tables) (o : Opening) (target : SocksTarget) : Prop :=
  hostText idna o.endpoint.address = some target.host ∧ target.port = o.endpoint.port

/-- The proxy and the client of its proxy have shaken hands: nothing is said without a
proxy, and otherwise the handshake has returned. -/
def Agreed (cfg : Config) (idna : Idna.Tables) (unquote : PyStr → PyStr) (target : SocksTarget)
    (answered asked : Bytes) : Prop :=
  match Outbound.proxy? cfg with
  | none => answered = [] ∧ asked = []
  | some proxyUrl => ∃ w, w.flatten = asked ∧
      (Outbound.socks5Handshake cfg.runtime idna unquote proxyUrl target.host target.port).Returns
        answered () [] w

/-- A program `p₀` has come to `p`, with this sent to it and that got from it. -/
def Talks {ε ρ : Type} (p₀ p : Proc UInt8 ε ρ) (f : Flow) (got : Bytes) : Prop :=
  ∃ w : List Bytes, w.flatten = got ∧
    ∀ k, (f.eof → k = []) → p₀.eval (f.sent ++ k) = (p.eval (f.rest ++ k)).after w

/-- The client has named its target, is told that it is served, and may have sent
more. -/
structure Named (idna : Idna.Tables) (target : SocksTarget) (flows : Direction → Flow) : Prop where
  sent : ∃ o, Asks idna o target ∧
    (flows .toUpstream).sent = o.bytes ++ (flows .toUpstream).rest
  told : (flows .toClient).got = granted

/-- No loop has run, and nothing is read for the client. -/
structure Unpiped (flows : Direction → Flow) : Prop where
  toUpstream : (flows .toUpstream).Unused
  toClient : (flows .toClient).Unused
  buffer : (flows .toClient).buffer = []
  fed : (flows .toClient).fed = false

/-- The upstream has not been heard. -/
structure Silent (flows : Direction → Flow) : Prop where
  got : (flows .toUpstream).got = []
  sent : (flows .toClient).sent = []
  wire : (flows .toClient).wire = []

variable (cfg : Config) (idna : Idna.Tables) (unquote : PyStr → PyStr)

/-- What holds in a phase. -/
def Phase.Holds (flows : Direction → Flow) : Phase → Prop
  | .shaking p => Unpiped flows ∧ Silent flows ∧
      Talks (socks5Handshake idna) p (flows .toUpstream) (flows .toClient).got
  | .dialling target => Unpiped flows ∧ Silent flows ∧ Named idna target flows
  | .intercepting target => Unpiped flows ∧ Silent flows ∧ Named idna target flows
  | .asking target p => Unpiped flows ∧ Named idna target flows ∧
      ∃ proxyUrl, Outbound.proxy? cfg = some proxyUrl ∧
        Talks (Outbound.socks5Handshake cfg.runtime idna unquote proxyUrl target.host target.port)
          p (flows .toClient) (flows .toUpstream).got
  | .attaching target => Unpiped flows ∧ Named idna target flows ∧
      ∃ answered, Agreed cfg idna unquote target answered (flows .toUpstream).got ∧
        (flows .toClient).sent = answered ++ (flows .toClient).rest
  | .piping target => (∀ d, (flows d).Orderly) ∧
      ∃ o answered asked, Asks idna o target ∧ Agreed cfg idna unquote target answered asked ∧
        (flows .toUpstream).Carries o.bytes asked ∧ (flows .toClient).Carries answered granted

/-- The address that was connected to goes with the target. -/
def Phase.Dials (dialled : Option (PyStr × ℕ)) : Phase → Prop
  | .shaking _ => dialled = none
  | .intercepting target => dialled = none ∧ shouldMitm cfg target
  | .dialling target => shouldMitm cfg target = false ∧
      dialled = (Outbound.dialAddress cfg target.host target.port).toOption
  | .asking target _ => shouldMitm cfg target = false ∧
      dialled = (Outbound.dialAddress cfg target.host target.port).toOption
  | .attaching target => shouldMitm cfg target = false ∧
      dialled = (Outbound.dialAddress cfg target.host target.port).toOption
  | .piping target => shouldMitm cfg target = false ∧
      dialled = (Outbound.dialAddress cfg target.host target.port).toOption

/-- What holds of a connection. -/
structure State.Holds (s : State) : Prop where
  said : s.phase.Holds cfg idna unquote s.flows
  dials : s.phase.Dials cfg s.dialled

variable {cfg idna unquote} {flows : Direction → Flow} {target : SocksTarget} {f g : Flow}
  {ε ρ : Type} {p₀ p q : Proc UInt8 ε ρ} {got : Bytes}

/-! ### Moves of the streams -/

/-- The source may send more to a program. -/
lemma Talks.more {more : Bytes} (h : Talks p₀ p f got) (hsent : g.sent = f.sent ++ more)
    (hrest : g.rest = f.rest ++ more) (heof : f.eof → more = []) (hgeof : f.eof → g.eof) :
    Talks p₀ p g got := by
  obtain ⟨w, hw, heval⟩ := h
  refine ⟨w, hw, fun k hk => ?_⟩
  rw [hsent, hrest, List.append_assoc, List.append_assoc]
  refine heval (more ++ k) fun hf => ?_
  rw [heof hf, hk (hgeof hf), List.append_nil]

section Moves

variable {m : Move}

lemma Unpiped.toUpstream_move (h : Unpiped flows) (hmove : (flows .toUpstream).move m = some f)
    (hm : m ≠ .pipe) : Unpiped (Function.update flows .toUpstream f) where
  toUpstream := by simpa using h.toUpstream.move hmove hm
  toClient := h.toClient
  buffer := h.buffer
  fed := h.fed

/-- The moves that read nothing. -/
inductive Unread : Move → Prop
  | send (bytes : Bytes) : Unread (.send bytes)
  | halfClose : Unread .halfClose
  | flush (n : ℕ) : Unread (.flush n)

lemma Unread.ne_pipe (hm : Unread m) : m ≠ .pipe := by
  rintro rfl
  cases hm

lemma Unpiped.toClient_move (h : Unpiped flows) (hmove : (flows .toClient).move m = some f)
    (hm : Unread m) : Unpiped (Function.update flows .toClient f) := by
  have hsame : f.buffer = (flows .toClient).buffer ∧ f.fed = (flows .toClient).fed := by
    cases hm <;>
    · rw [Flow.move] at hmove
      split_ifs at hmove
      obtain rfl := Option.some.inj hmove
      exact ⟨rfl, rfl⟩
  refine ⟨h.toUpstream, ?_, ?_, ?_⟩ <;> rw [Function.update_self]
  · exact h.toClient.move hmove hm.ne_pipe
  · exact hsame.1.trans h.buffer
  · exact hsame.2.trans h.fed

/-- A client that has named its target may send more. -/
lemma Named.toUpstream_move (h : Named idna target flows)
    (hmove : (flows .toUpstream).move m = some f) (hm : m ≠ .pipe) :
    Named idna target (Function.update flows .toUpstream f) := by
  obtain ⟨more, hsent, hrest, -⟩ := Flow.move_cases hmove hm
  obtain ⟨⟨o, hasks, ho⟩, htold⟩ := h
  refine ⟨⟨o, hasks, ?_⟩, htold⟩
  rw [Function.update_self, hsent, hrest, ho, List.append_assoc]

lemma Named.toClient_move (h : Named idna target flows)
    (hmove : (flows .toClient).move m = some f) (hm : m ≠ .pipe) :
    Named idna target (Function.update flows .toClient f) := by
  obtain ⟨more, -, -, hgot, -⟩ := Flow.move_cases hmove hm
  refine ⟨h.sent, ?_⟩
  rw [Function.update_self, hgot]
  exact h.told

lemma Silent.toUpstream_move (h : Silent flows) (hmove : (flows .toUpstream).move m = some f)
    (hm : m ≠ .pipe) : Silent (Function.update flows .toUpstream f) := by
  obtain ⟨more, -, -, hgot, -⟩ := Flow.move_cases hmove hm
  refine ⟨?_, h.sent, h.wire⟩
  rw [Function.update_self, hgot]
  exact h.got

/-- What was written to the client is delivered. -/
lemma Silent.toClient_flush {n : ℕ} (h : Silent flows)
    (hmove : (flows .toClient).move (.flush n) = some f) :
    Silent (Function.update flows .toClient f) ∧ f.sent = [] ∧ f.got = (flows .toClient).got := by
  rw [Flow.move] at hmove
  split_ifs at hmove
  obtain rfl := Option.some.inj hmove
  exact ⟨⟨h.got, h.sent, h.wire⟩, h.sent, by simp [Flow.got]⟩

/-- Before the tunnel, no loop copies what the client sends. -/
lemma State.ne_pipe {s : State} (hallow : s.allows .toUpstream m)
    (hphase : s.phase.tunnels = false) : m ≠ .pipe := by
  rintro rfl
  simp [State.allows, hphase] at hallow

/-- Before the tunnel, nothing is read for the client. -/
lemma State.flush_or_connected {s : State} (hallow : s.allows .toClient m)
    (hphase : s.phase.tunnels = false) :
    (∃ n, m = .flush n) ∨ s.phase.connected = true ∧ Unread m := by
  cases m with
  | flush n => exact .inl ⟨n, rfl⟩
  | send bytes =>
      have hconnected : s.ended = false ∧ s.phase.connected = true := by
        simpa [State.allows] using hallow
      exact .inr ⟨hconnected.2, .send bytes⟩
  | halfClose =>
      have hconnected : s.ended = false ∧ s.phase.connected = true := by
        simpa [State.allows] using hallow
      exact .inr ⟨hconnected.2, .halfClose⟩
  | _ => simp [State.allows, hphase] at hallow

/-- A move of the stream of the client. -/
lemma Phase.Holds.toUpstream_move {phase : Phase} (h : phase.Holds cfg idna unquote flows)
    (hmove : (flows .toUpstream).move m = some f) (hm : phase.tunnels = false → m ≠ .pipe) :
    phase.Holds cfg idna unquote (Function.update flows .toUpstream f) := by
  cases phase with
  | shaking p =>
      obtain ⟨hunpiped, hsilent, htalks⟩ := h
      obtain ⟨more, hsent, hrest, -, heof, hgeof⟩ := Flow.move_cases hmove (hm rfl)
      refine ⟨hunpiped.toUpstream_move hmove (hm rfl), hsilent.toUpstream_move hmove (hm rfl), ?_⟩
      rw [Function.update_self]
      exact htalks.more hsent hrest heof hgeof
  | dialling target =>
      -- what the client sends early stays in its stream
      obtain ⟨hunpiped, hsilent, hnamed⟩ := h
      exact ⟨hunpiped.toUpstream_move hmove (hm rfl), hsilent.toUpstream_move hmove (hm rfl),
        hnamed.toUpstream_move hmove (hm rfl)⟩
  | intercepting target =>
      obtain ⟨hunpiped, hsilent, hnamed⟩ := h
      exact ⟨hunpiped.toUpstream_move hmove (hm rfl), hsilent.toUpstream_move hmove (hm rfl),
        hnamed.toUpstream_move hmove (hm rfl)⟩
  | asking target p =>
      obtain ⟨hunpiped, hnamed, proxyUrl, hproxy, htalks⟩ := h
      obtain ⟨more, -, -, hgot, -⟩ := Flow.move_cases hmove (hm rfl)
      refine ⟨hunpiped.toUpstream_move hmove (hm rfl), hnamed.toUpstream_move hmove (hm rfl),
        proxyUrl, hproxy, ?_⟩
      rw [Function.update_self, hgot]
      exact htalks
  | attaching target =>
      obtain ⟨hunpiped, hnamed, answered, hagreed, hsent⟩ := h
      obtain ⟨more, -, -, hgot, -⟩ := Flow.move_cases hmove (hm rfl)
      refine ⟨hunpiped.toUpstream_move hmove (hm rfl), hnamed.toUpstream_move hmove (hm rfl),
        answered, ?_, hsent⟩
      rw [Function.update_self, hgot]
      exact hagreed
  | piping target =>
      obtain ⟨horderly, o, answered, asked, hasks, hagreed, hup, hdown⟩ := h
      refine ⟨Tunnel.forall_update horderly ((horderly _).move hmove), o, answered, asked, hasks,
        hagreed, ?_, hdown⟩
      rw [Function.update_self]
      exact hup.move hmove

/-- A move of the stream of the upstream. -/
lemma Phase.Holds.toClient_move {phase : Phase} (h : phase.Holds cfg idna unquote flows)
    (hmove : (flows .toClient).move m = some f)
    (hm : phase.tunnels = false →
      (∃ n, m = .flush n) ∨ phase.connected = true ∧ Unread m) :
    phase.Holds cfg idna unquote (Function.update flows .toClient f) := by
  -- before the tunnel nothing is read by a copying loop
  have hread : phase.tunnels = false → Unread m := by
    intro hphase
    rcases hm hphase with ⟨n, rfl⟩ | ⟨-, hread⟩
    · exact .flush n
    · exact hread
  cases phase with
  | shaking p =>
      -- no upstream yet, so the client only takes what it is sent
      obtain ⟨hunpiped, hsilent, htalks⟩ := h
      obtain ⟨n, rfl⟩ := (hm rfl).resolve_right fun h => absurd h.1 Bool.false_ne_true
      obtain ⟨hsilent', -, hgot⟩ := hsilent.toClient_flush hmove
      refine ⟨hunpiped.toClient_move hmove (hread rfl), hsilent', ?_⟩
      rw [Function.update_self, hgot]
      exact htalks
  | dialling target =>
      obtain ⟨hunpiped, hsilent, hnamed⟩ := h
      obtain ⟨n, rfl⟩ := (hm rfl).resolve_right fun h => absurd h.1 Bool.false_ne_true
      exact ⟨hunpiped.toClient_move hmove (hread rfl),
        (hsilent.toClient_flush hmove).1, hnamed.toClient_move hmove (hread rfl).ne_pipe⟩
  | intercepting target =>
      obtain ⟨hunpiped, hsilent, hnamed⟩ := h
      obtain ⟨n, rfl⟩ := (hm rfl).resolve_right fun h => absurd h.1 Bool.false_ne_true
      exact ⟨hunpiped.toClient_move hmove (hread rfl),
        (hsilent.toClient_flush hmove).1, hnamed.toClient_move hmove (hread rfl).ne_pipe⟩
  | asking target p =>
      obtain ⟨hunpiped, hnamed, proxyUrl, hproxy, htalks⟩ := h
      obtain ⟨more, hsent, hrest, -, heof, hgeof⟩ := Flow.move_cases hmove (hread rfl).ne_pipe
      refine ⟨hunpiped.toClient_move hmove (hread rfl),
        hnamed.toClient_move hmove (hread rfl).ne_pipe, proxyUrl, hproxy, ?_⟩
      rw [Function.update_self]
      exact htalks.more hsent hrest heof hgeof
  | attaching target =>
      -- what comes early is left to the tunnel
      obtain ⟨hunpiped, hnamed, answered, hagreed, hanswered⟩ := h
      obtain ⟨more, hsent, hrest, -⟩ := Flow.move_cases hmove (hread rfl).ne_pipe
      refine ⟨hunpiped.toClient_move hmove (hread rfl),
        hnamed.toClient_move hmove (hread rfl).ne_pipe, answered, hagreed, ?_⟩
      rw [Function.update_self, hsent, hrest, hanswered, List.append_assoc]
  | piping target =>
      obtain ⟨horderly, o, answered, asked, hasks, hagreed, hup, hdown⟩ := h
      refine ⟨Tunnel.forall_update horderly ((horderly _).move hmove), o, answered, asked, hasks,
        hagreed, hup, ?_⟩
      rw [Function.update_self]
      exact hdown.move hmove

end Moves

/-! ### The handshakes -/

/-- A program that acts has said what it sends. -/
lemma Talks.act {n : ℕ} {i j out : Bytes} (h : Talks p₀ p f got)
    (hact : p.act? n i = some (q, j, out)) {k : Bytes} (hf : f.rest = i ++ k)
    (hg : g.rest = j ++ k) (hsent : g.sent = f.sent) (heof : g.eof = f.eof) :
    Talks p₀ q g (got ++ out) := by
  obtain ⟨w, hw, heval⟩ := h
  refine ⟨w ++ wrote out, ?_, fun more hmore => ?_⟩
  · rw [List.flatten_append, hw, wrote]
    split_ifs with hout
    · simp [hout]
    · simp
  · rw [hsent, heval more (fun h => hmore (heof ▸ h)), hf, hg, List.append_assoc,
      Proc.eval_act? hact, List.append_assoc, Result.after_after]

/-- A program that finds the end of its stream has been sent all there is. -/
lemma Talks.endOfStream (h : Talks p₀ p f got) (hend : p.atEnd? = some q) (heof : f.eof)
    (hrest : f.rest = []) : Talks p₀ q f got := by
  obtain ⟨w, hw, heval⟩ := h
  refine ⟨w, hw, fun k hk => ?_⟩
  obtain rfl := hk heof
  rw [heval [] fun _ => rfl, hrest, List.nil_append, Proc.eval_atEnd? hend]

section Spoke

variable {d : Direction} {buffer wire out : Bytes}

lemma spoke_self : spoke flows d buffer wire out d
    = { flows d with buffer := buffer, wire := wire } := by
  rw [spoke, Function.update_of_ne d.reverse_ne.symm, Function.update_self]

lemma spoke_reverse : spoke flows d buffer wire out d.reverse
    = { flows d.reverse with outgoing := (flows d.reverse).outgoing ++ out } := by
  rw [spoke, Function.update_self]

lemma spoke_toClient : spoke flows .toUpstream buffer wire out .toClient
    = { flows .toClient with outgoing := (flows .toClient).outgoing ++ out } := spoke_reverse

lemma spoke_toUpstream : spoke flows .toClient buffer wire out .toUpstream
    = { flows .toUpstream with outgoing := (flows .toUpstream).outgoing ++ out } := spoke_reverse

end Spoke

/-- The handshake with the client goes on. -/
lemma Phase.Holds.shaking_act {p q : Server (Option SocksTarget)} {n : ℕ} {rest out : Bytes}
    (h : (Phase.shaking p).Holds cfg idna unquote flows)
    (hact : p.act? n (flows .toUpstream).buffer = some (q, rest, out)) :
    (Phase.shaking q).Holds cfg idna unquote
      (spoke flows .toUpstream rest (flows .toUpstream).wire out) := by
  obtain ⟨hunpiped, hsilent, htalks⟩ := h
  obtain ⟨hup, hdown, hbuffer, hfed⟩ := hunpiped
  refine ⟨⟨?_, ?_, ?_, ?_⟩, ⟨?_, ?_, ?_⟩, ?_⟩
  case refine_8 =>
    rw [spoke_self, spoke_toClient]
    simpa [Flow.got] using htalks.act (g := { flows .toUpstream with buffer := rest })
      hact rfl rfl rfl rfl
  · rw [spoke_self]
    exact ⟨hup.closed, hup.stopped, hup.done_of_fed⟩
  all_goals first | rw [spoke_toClient] | rw [spoke_self]
  · exact ⟨hdown.closed, hdown.stopped, hdown.done_of_fed⟩
  · exact hbuffer
  · exact hfed
  · exact hsilent.got
  · exact hsilent.sent
  · exact hsilent.wire

/-- The handshake with the proxy goes on. -/
lemma Phase.Holds.asking_act {p q : Outbound.Client Unit} {n : ℕ} {rest out : Bytes}
    (h : (Phase.asking target p).Holds cfg idna unquote flows)
    (hact : p.act? n (flows .toClient).wire = some (q, rest, out)) :
    (Phase.asking target q).Holds cfg idna unquote
      (spoke flows .toClient (flows .toClient).buffer rest out) := by
  obtain ⟨hunpiped, hnamed, proxyUrl, hproxy, htalks⟩ := h
  obtain ⟨hup, hdown, hbuffer, hfed⟩ := hunpiped
  refine ⟨⟨?_, ?_, ?_, ?_⟩, ⟨?_, ?_⟩, proxyUrl, hproxy, ?_⟩
  case refine_7 =>
    rw [spoke_self, spoke_toUpstream]
    have hacted := htalks.act (k := []) (g := { flows .toClient with wire := rest }) hact
      (by simp [Flow.rest, hbuffer]) (by simp [Flow.rest, hbuffer]) rfl rfl
    simpa [Flow.got] using hacted
  · rw [spoke_toUpstream]
    exact ⟨hup.closed, hup.stopped, hup.done_of_fed⟩
  all_goals first | rw [spoke_toUpstream] | rw [spoke_self]
  · exact ⟨hdown.closed, hdown.stopped, fun h => absurd h (by simp [hfed])⟩
  · exact hbuffer
  · exact hfed
  · exact hnamed.sent
  · exact hnamed.told

/-! ### Steps -/

section Step

variable {s t : State} {e : Event}

lemma State.Holds.act {n : ℕ} (h : s.Holds cfg idna unquote) (hact : s.act n = some t) :
    t.Holds cfg idna unquote := by
  obtain ⟨phase, ended, dialled, flows⟩ := s
  cases phase with
  | shaking p =>
      obtain ⟨⟨q, rest, out⟩, hq, rfl⟩ := Option.map_eq_some_iff.mp hact
      exact ⟨h.said.shaking_act hq, h.dials⟩
  | asking target p =>
      obtain ⟨⟨q, rest, out⟩, hq, rfl⟩ := Option.map_eq_some_iff.mp hact
      exact ⟨h.said.asking_act hq, h.dials⟩
  | _ => cases hact

lemma State.Holds.endOfStream (h : s.Holds cfg idna unquote) (hend : s.endOfStream = some t) :
    t.Holds cfg idna unquote := by
  obtain ⟨phase, ended, dialled, flows⟩ := s
  obtain ⟨hsaid, hdials⟩ := h
  cases phase with
  | shaking p =>
      obtain ⟨hunpiped, hsilent, htalks⟩ := hsaid
      simp only [State.endOfStream] at hend
      split_ifs at hend with hfed
      obtain ⟨q, hq, rfl⟩ := Option.map_eq_some_iff.mp hend
      obtain ⟨heof, hwire⟩ := hunpiped.toUpstream.done_of_fed hfed.1
      refine ⟨⟨hunpiped, hsilent, htalks.endOfStream hq heof ?_⟩, hdials⟩
      rw [Flow.rest, hwire, hfed.2, List.append_nil]
  | asking target p =>
      obtain ⟨hunpiped, hnamed, proxyUrl, hproxy, htalks⟩ := hsaid
      simp only [State.endOfStream] at hend
      split_ifs at hend with heof
      obtain ⟨q, hq, rfl⟩ := Option.map_eq_some_iff.mp hend
      refine ⟨⟨hunpiped, hnamed, proxyUrl, hproxy, htalks.endOfStream hq heof.1 ?_⟩, hdials⟩
      rw [Flow.rest, hunpiped.buffer, heof.2, List.append_nil]
  | _ => cases hend

/-- A handshake that has returned has read what it was sent. -/
lemma Talks.returns {r : ρ} (h : Talks p₀ (.done r) f got) :
    ∃ w : List Bytes, w.flatten = got ∧ p₀.Returns f.sent r f.rest w := by
  obtain ⟨w, hw, heval⟩ := h
  refine ⟨w, hw, ?_⟩
  have hnow := heval [] fun _ => rfl
  rw [List.append_nil, List.append_nil] at hnow
  simpa [Proc.Returns, Proc.eval, Result.after] using hnow

/-- The client has named its target. -/
lemma Phase.Holds.named (h : (Phase.shaking (.done (some target))).Holds cfg idna unquote flows) :
    Named idna target flows := by
  obtain ⟨-, -, htalks⟩ := h
  obtain ⟨w, hw, hreturns⟩ := htalks.returns
  obtain ⟨o, hsent, hhost, hport, rfl⟩ := returns_socks5Handshake.mp hreturns
  exact ⟨⟨o, ⟨hhost, hport⟩, hsent⟩, by rw [← hw]; rfl⟩

/-- The proxy has agreed. -/
lemma Phase.Holds.agreed (h : (Phase.asking target (.done ())).Holds cfg idna unquote flows) :
    (Phase.attaching target).Holds cfg idna unquote flows := by
  obtain ⟨hunpiped, hnamed, proxyUrl, hproxy, htalks⟩ := h
  obtain ⟨w, hw, hreturns⟩ := htalks.returns
  have hsuffix := (Outbound.socks5Handshake cfg.runtime idna unquote proxyUrl target.host
    target.port).rest_suffix (flows .toClient).sent
  rw [hreturns] at hsuffix
  obtain ⟨answered, hanswered⟩ := hsuffix
  refine ⟨hunpiped, hnamed, answered, ?_, hanswered.symm⟩
  rw [Agreed, hproxy]
  rw [← hanswered] at hreturns
  exact ⟨w, hw, hreturns.of_append⟩

lemma State.Holds.proceed (h : s.Holds cfg idna unquote) (hproceed : s.proceed cfg = some t) :
    t.Holds cfg idna unquote := by
  obtain ⟨phase, ended, dialled, flows⟩ := s
  obtain ⟨hsaid, hdials⟩ := h
  cases phase with
  | shaking p =>
      cases p with
      | done target? =>
          cases target? with
          | none =>
              obtain rfl := Option.some.inj hproceed
              exact ⟨hsaid, hdials⟩
          | some target =>
              obtain rfl := Option.some.inj hproceed
              have hnamed := hsaid.named
              rw [State.serve]
              split_ifs with hmitm
              · exact ⟨⟨hsaid.1, hsaid.2.1, hnamed⟩, hdials, hmitm⟩
              · split
                · rename_i address haddress
                  refine ⟨⟨hsaid.1, hsaid.2.1, hnamed⟩, by simpa using hmitm, ?_⟩
                  rw [haddress]
                  rfl
                · rename_i error herror
                  refine ⟨⟨hsaid.1, hsaid.2.1, hnamed⟩, by simpa using hmitm, ?_⟩
                  rw [herror]
                  exact hdials
      | raised error =>
          obtain rfl := Option.some.inj hproceed
          exact ⟨hsaid, hdials⟩
      | _ => cases hproceed
  | asking target p =>
      cases p with
      | done r =>
          obtain rfl := Option.some.inj hproceed
          exact ⟨hsaid.agreed, hdials⟩
      | raised error =>
          obtain rfl := Option.some.inj hproceed
          exact ⟨hsaid, hdials⟩
      | _ => cases hproceed
  | _ => cases hproceed

/-- The tunnel begins: what the client and the upstream have sent is carried. -/
lemma Named.piping (hnamed : Named idna target flows) (hunpiped : Unpiped flows)
    {answered : Bytes} (hagreed : Agreed cfg idna unquote target answered (flows .toUpstream).got)
    (hsent : (flows .toClient).sent = answered ++ (flows .toClient).rest) :
    (Phase.piping target).Holds cfg idna unquote flows := by
  obtain ⟨⟨o, hasks, ho⟩, htold⟩ := hnamed
  refine ⟨fun d => ?_, o, answered, _, hasks, hagreed, ⟨[], ?_, ?_⟩, [], ?_, ?_⟩
  · cases d with
    | toUpstream => exact hunpiped.toUpstream.orderly
    | toClient => exact hunpiped.toClient.orderly
  · rw [List.append_nil]
    exact ho
  · rw [List.append_nil]
  · rw [List.append_nil]
    exact hsent
  · rw [List.append_nil]
    exact htold

lemma State.Holds.connect (h : s.Holds cfg idna unquote)
    (hconnect : s.connect cfg idna unquote = some t) : t.Holds cfg idna unquote := by
  obtain ⟨phase, ended, dialled, flows⟩ := s
  obtain ⟨hsaid, hdials⟩ := h
  cases phase with
  | dialling target =>
      obtain ⟨hunpiped, hsilent, hnamed⟩ := hsaid
      have hrest : (flows .toClient).rest = [] := by
        rw [Flow.rest, hunpiped.buffer, hsilent.wire, List.append_nil]
      simp only [State.connect] at hconnect
      split at hconnect
      · rename_i hnone
        obtain rfl := Option.some.inj hconnect
        refine ⟨@Named.piping _ _ _ _ _ hnamed hunpiped [] ?_ ?_, hdials⟩
        · rw [Agreed, hnone]
          exact ⟨rfl, hsilent.got⟩
        · rw [hsilent.sent, hrest, List.append_nil]
      · rename_i proxyUrl hproxy
        obtain rfl := Option.some.inj hconnect
        refine ⟨⟨hunpiped, hnamed, proxyUrl, hproxy, [], ?_, fun k _ => ?_⟩, hdials⟩
        · rw [hsilent.got]
          rfl
        · rw [hsilent.sent, hrest, Result.after_nil]
  | _ => cases hconnect

lemma State.Holds.stop {d : Direction} {flows : Direction → Flow} (h : s.Holds cfg idna unquote)
    (hphase : s.phase.tunnels = true) (hstop : Tunnel.step s.flows (.stop d) = some flows) :
    State.Holds cfg idna unquote { s with flows := flows } := by
  obtain ⟨phase, ended, dialled, flows₀⟩ := s
  obtain ⟨hsaid, hdials⟩ := h
  cases phase with
  | piping target =>
      obtain ⟨horderly, o, answered, asked, hasks, hagreed, hup, hdown⟩ := hsaid
      simp only [Tunnel.step] at hstop
      split_ifs at hstop
      obtain rfl := Option.some.inj hstop
      refine ⟨⟨Tunnel.forall_update horderly (horderly _).stop, o, answered, asked, hasks,
        hagreed, ?_, ?_⟩, hdials⟩
      · cases d with
        | toUpstream => exact hup
        | toClient => exact hup
      · cases d with
        | toUpstream => exact hdown
        | toClient => exact hdown
  | _ => cases hphase

/-- **Every step keeps what holds of a connection.** -/
theorem State.Holds.step (h : s.Holds cfg idna unquote)
    (hstep : step cfg idna unquote s e = some t) : t.Holds cfg idna unquote := by
  cases step_move hstep with
  | @flow d m f hallow hmove =>
      cases d with
      | toUpstream => exact ⟨h.said.toUpstream_move hmove (State.ne_pipe hallow), h.dials⟩
      | toClient => exact ⟨h.said.toClient_move hmove (State.flush_or_connected hallow), h.dials⟩
  | stop _ htunnels hstop => exact h.stop htunnels hstop
  | act _ hact => exact h.act hact
  | endOfStream _ hend => exact h.endOfStream hend
  | proceed _ hproceed => exact h.proceed hproceed
  | connected _ hconnect => exact h.connect hconnect
  | @attached target _ hphase =>
      obtain ⟨phase, ended, dialled, flows⟩ := s
      obtain rfl : phase = .attaching target := hphase
      obtain ⟨⟨hunpiped, hnamed, answered, hagreed, hsent⟩, hdials⟩ := h
      exact ⟨hnamed.piping hunpiped hagreed hsent, hdials⟩
  | gathered => exact ⟨h.said, h.dials⟩
  | raised => exact ⟨h.said, h.dials⟩

end Step

end SocksMitm

end CodexResetProxy
