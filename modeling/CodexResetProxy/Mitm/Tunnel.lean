import Mathlib.Data.List.Infix
import Mathlib.Logic.Function.Basic
import CodexResetProxy.Library.ByteStr
import CodexResetProxy.Library.Transition

/-!
Tunnels (`_handle_tunnel`, `_pipe`): two loops that copy between two sockets.

The loop of one direction reads from the socket of one side and writes to that of the
other. When it meets the end of its stream it closes the socket it writes to, and with
it the stream that the loop of the other direction reads.

* `tunnel`: the two sides, the two loops and the two sockets as a transition system.
* `delivered_prefix`: what is delivered was sent, in order and once.
* `exists_quiet`: a tunnel that is left alone comes to rest.
* `lossless_iff`: **when everything is delivered**: no socket is closed before what its
  side has sent is read, and nothing is sent to it afterwards.
-/

namespace CodexResetProxy

open ByteStr Transition

namespace Tunnel

/-! ### The system -/

/-- The two directions of a tunnel. -/
inductive Direction where
  | toUpstream
  | toClient
  deriving DecidableEq

/-- The other direction. -/
def Direction.reverse : Direction → Direction
  | .toUpstream => .toClient
  | .toClient => .toUpstream

@[simp] lemma Direction.reverse_reverse (d : Direction) : d.reverse.reverse = d := by
  cases d <;> rfl

@[simp] lemma Direction.reverse_ne (d : Direction) : d.reverse ≠ d := by
  cases d <;> decide

/-- One direction. -/
structure Flow where
  /-- What the source has sent. -/
  sent : Bytes := []
  /-- The source has half-closed. -/
  eof : Bool := false
  /-- What was sent and has not been read from the socket. -/
  wire : Bytes := []
  /-- The socket of the source is not read any more. -/
  stopped : Bool := false
  /-- The buffer of the `StreamReader`. -/
  buffer : Bytes := []
  /-- `feed_eof` has been called. -/
  fed : Bool := false
  /-- The loop has ended, and has closed its writer. -/
  closed : Bool := false
  /-- What was written and is not delivered yet. -/
  outgoing : Bytes := []
  /-- What the other side has got. -/
  delivered : Bytes := []
  deriving DecidableEq

/-- Both directions. -/
abbrev State := Direction → Flow

/-- What can happen in one direction. -/
inductive Move where
  /-- The source sends bytes. -/
  | send (bytes : Bytes)
  /-- The source half-closes. -/
  | halfClose
  /-- Bytes are read from the socket into the buffer. -/
  | arrive (n : ℕ)
  /-- The end of the stream is read from the socket. -/
  | arriveEof
  /-- The loop does one iteration. -/
  | pipe
  /-- Bytes are delivered. -/
  | flush (n : ℕ)

/-- What can happen. -/
inductive Event where
  | flow (d : Direction) (m : Move)
  /-- The writer of a direction has been closed and flushed: its socket, the source of
  the other direction, is read no more. -/
  | stop (d : Direction)

/-- The events that no side decides on. -/
def Event.Internal : Event → Prop
  | .flow _ (.send _) => False
  | .flow _ .halfClose => False
  | _ => True

/-- How much `_pipe` reads at a time. -/
def readSize : ℕ := 64 * 1024

namespace Flow

/-- One iteration of `_pipe`, with `none` while it waits. -/
def pipe (f : Flow) : Option Flow :=
  if f.closed then none
  else if f.buffer ≠ [] then
    some { f with
      buffer := f.buffer.drop readSize, outgoing := f.outgoing ++ f.buffer.take readSize }
  else if f.fed then some { f with closed := true }
  else none

/-- One move, with `none` for one that cannot happen. -/
def move (f : Flow) : Move → Option Flow
  | .send bytes =>
      if f.eof then none else some { f with sent := f.sent ++ bytes, wire := f.wire ++ bytes }
  | .halfClose => if f.eof then none else some { f with eof := true }
  | .arrive n =>
      if f.stopped ∨ f.wire = [] ∨ n = 0 then none
      else some { f with buffer := f.buffer ++ f.wire.take n, wire := f.wire.drop n }
  | .arriveEof =>
      if f.stopped ∨ f.fed ∨ ¬f.eof ∨ f.wire ≠ [] then none else some { f with fed := true }
  | .pipe => f.pipe
  | .flush n =>
      if f.outgoing = [] ∨ n = 0 then none
      else some { f with
        delivered := f.delivered ++ f.outgoing.take n, outgoing := f.outgoing.drop n }

/-- The socket of the source is closed: the buffer is all that is left to be read. -/
def stop (f : Flow) : Flow := { f with stopped := true, fed := true }

end Flow

/-- One event, with `none` for one that cannot happen. -/
def step (s : State) : Event → Option State
  | .flow d m => ((s d).move m).map (Function.update s d)
  | .stop d =>
      if (s d).closed ∧ (s d).outgoing = [] ∧ ¬(s d.reverse).stopped then
        some (Function.update s d.reverse (s d.reverse).stop)
      else none

/-- A tunnel. -/
def tunnel : System State Event where
  init := fun _ => {}
  step := step

/-- Nothing happens any more unless a side sends or half-closes. -/
def Quiet (s : State) : Prop := ∀ e, e.Internal → step s e = none

/-- What a step takes from no one: a socket that is closed with everything read from
it, and nothing sent to a socket that is closed. -/
def Harmless (s : State) : Event → Prop
  | .flow d (.send bytes) => (s d).stopped → bytes = []
  | .stop d => (s d.reverse).wire = []
  | _ => True

instance : ∀ (s : State) (e : Event), Decidable (Harmless s e)
  | s, .flow d (.send bytes) => inferInstanceAs (Decidable ((s d).stopped → bytes = []))
  | s, .stop d => inferInstanceAs (Decidable ((s d.reverse).wire = []))
  | _, .flow _ .halfClose => isTrue trivial
  | _, .flow _ (.arrive _) => isTrue trivial
  | _, .flow _ .arriveEof => isTrue trivial
  | _, .flow _ .pipe => isTrue trivial
  | _, .flow _ (.flush _) => isTrue trivial

/-! ### What holds of one direction -/

namespace Flow

/-- What holds of a direction in every state. -/
structure Sound (f : Flow) : Prop where
  kept : f.sent = f.delivered ++ f.outgoing ++ f.buffer ++ f.wire
  fed_of_stopped : f.stopped → f.fed
  done_of_fed : f.fed → f.stopped ∨ (f.eof ∧ f.wire = [])
  fed_of_closed : f.closed → f.fed ∧ f.buffer = []

/-- Bytes that will not be read. -/
def Lost (f : Flow) : Prop := f.stopped ∧ f.wire ≠ []

variable {f g : Flow} {m : Move}

/-- An iteration of the loop moves a chunk, or closes the writer. -/
lemma pipe_eq_some (h : f.pipe = some g) : f.closed = false ∧
    ((f.buffer ≠ [] ∧ g = { f with
        buffer := f.buffer.drop readSize, outgoing := f.outgoing ++ f.buffer.take readSize }) ∨
      (f.buffer = [] ∧ f.fed ∧ g = { f with closed := true })) := by
  rw [pipe] at h
  split_ifs at h with hclosed hbuffer hfed
  · exact ⟨by simpa using hclosed, .inl ⟨hbuffer, (Option.some.inj h).symm⟩⟩
  · exact ⟨by simpa using hclosed, .inr ⟨not_not.mp hbuffer, hfed, (Option.some.inj h).symm⟩⟩

lemma Sound.move (hf : f.Sound) (h : f.move m = some g) : g.Sound := by
  obtain ⟨hkept, hstopped, hfed, hclosed⟩ := hf
  cases m with
  | send bytes =>
      rw [Flow.move] at h
      split_ifs at h with heof
      obtain rfl := Option.some.inj h
      refine ⟨by simp [hkept], hstopped, fun hf => ?_, hclosed⟩
      exact (hfed hf).imp_right fun hdone => absurd hdone.1 heof
  | halfClose =>
      rw [Flow.move] at h
      split_ifs at h with heof
      obtain rfl := Option.some.inj h
      exact ⟨hkept, hstopped, fun hf => (hfed hf).imp_right fun hdone => ⟨rfl, hdone.2⟩, hclosed⟩
  | arrive n =>
      -- nothing arrives after the end of the stream
      rw [Flow.move] at h
      split_ifs at h with hno
      obtain rfl := Option.some.inj h
      rw [not_or, not_or] at hno
      have hnotFed : ¬f.fed := fun hf =>
        (hfed hf).elim hno.1 fun hdone => hno.2.1 hdone.2
      refine ⟨by simp [hkept], hstopped, fun hf => absurd hf hnotFed, fun hc => ?_⟩
      exact absurd (hclosed hc).1 hnotFed
  | arriveEof =>
      rw [Flow.move] at h
      split_ifs at h with hno
      obtain rfl := Option.some.inj h
      simp only [not_or, not_not] at hno
      exact ⟨hkept, fun _ => rfl, fun _ => .inr ⟨hno.2.2.1, hno.2.2.2⟩,
        fun hc => ⟨rfl, (hclosed hc).2⟩⟩
  | pipe =>
      -- a chunk is handed on, or the socket closed at the end of the stream
      obtain ⟨hopen, ⟨-, rfl⟩ | ⟨hbuffer, hf, rfl⟩⟩ := pipe_eq_some h
      · exact ⟨by simp [hkept], hstopped, hfed, fun hc => absurd hc (by simp [hopen])⟩
      · exact ⟨hkept, hstopped, hfed, fun _ => ⟨hf, hbuffer⟩⟩
  | flush n =>
      rw [Flow.move] at h
      split_ifs at h with hno
      obtain rfl := Option.some.inj h
      exact ⟨by simp [hkept], hstopped, hfed, hclosed⟩

lemma Sound.stop (hf : f.Sound) : f.stop.Sound :=
  ⟨hf.kept, fun _ => rfl, fun _ => .inl rfl, fun hc => ⟨rfl, (hf.fed_of_closed hc).2⟩⟩

/-- What is lost stays lost. -/
lemma Lost.move (hf : f.Lost) (h : f.move m = some g) : g.Lost := by
  obtain ⟨hstopped, hwire⟩ := hf
  cases m with
  | pipe =>
      obtain ⟨-, ⟨-, rfl⟩ | ⟨-, -, rfl⟩⟩ := pipe_eq_some h
      · exact ⟨hstopped, hwire⟩
      · exact ⟨hstopped, hwire⟩
  | send bytes =>
      rw [Flow.move] at h
      split_ifs at h
      obtain rfl := Option.some.inj h
      exact ⟨hstopped, by simp [hwire]⟩
  | arrive n => simp [Flow.move, hstopped] at h
  | arriveEof => simp [Flow.move, hstopped] at h
  | halfClose | flush =>
      rw [Flow.move] at h
      split_ifs at h
      obtain rfl := Option.some.inj h
      exact ⟨hstopped, hwire⟩

/-- Nothing is lost by a move, unless it sends to a socket that is read no more. -/
lemma not_lost_of_move (hf : ¬f.Lost) (hsend : ∀ bytes, m = .send bytes → f.stopped → bytes = [])
    (h : f.move m = some g) : ¬g.Lost := by
  rintro ⟨hstopped, hwire⟩
  cases m with
  | pipe =>
      obtain ⟨-, ⟨-, rfl⟩ | ⟨-, -, rfl⟩⟩ := pipe_eq_some h
      · exact hf ⟨hstopped, hwire⟩
      · exact hf ⟨hstopped, hwire⟩
  | send bytes =>
      rw [Flow.move] at h
      split_ifs at h
      obtain rfl := Option.some.inj h
      rw [hsend bytes rfl hstopped] at hwire
      exact hf ⟨hstopped, by simpa using hwire⟩
  | arrive n =>
      rw [Flow.move] at h
      split_ifs at h with hno
      obtain rfl := Option.some.inj h
      exact hno (.inl hstopped)
  | arriveEof =>
      rw [Flow.move] at h
      split_ifs at h with hno
      obtain rfl := Option.some.inj h
      exact hno (.inl hstopped)
  | halfClose | flush =>
      rw [Flow.move] at h
      split_ifs at h
      obtain rfl := Option.some.inj h
      exact hf ⟨hstopped, hwire⟩

/-- The work that is left in one direction. -/
def rank (f : Flow) : ℕ :=
  3 * f.wire.length + 2 * f.buffer.length + f.outgoing.length +
    (!f.fed).toNat + (!f.closed).toNat + (!f.stopped).toNat

/-- A move that no side decides on does some of the work. -/
lemma rank_move {d : Direction} (hm : Event.Internal (.flow d m)) (h : f.move m = some g) :
    g.rank < f.rank := by
  cases m with
  | send bytes => exact hm.elim
  | halfClose => exact hm.elim
  | arrive n =>
      rw [Flow.move] at h
      split_ifs at h with hno
      obtain rfl := Option.some.inj h
      rw [not_or, not_or] at hno
      have hwire : 0 < f.wire.length := List.length_pos_iff.mpr hno.2.1
      simp only [rank, List.length_append, List.length_take, List.length_drop]
      omega
  | arriveEof =>
      rw [Flow.move] at h
      split_ifs at h with hno
      obtain rfl := Option.some.inj h
      rw [not_or, not_or] at hno
      simp [rank, hno.2.1]
  | pipe =>
      obtain ⟨hopen, ⟨hbuffer, rfl⟩ | ⟨-, -, rfl⟩⟩ := pipe_eq_some h
      · have hlength : 0 < f.buffer.length := List.length_pos_iff.mpr hbuffer
        simp only [rank, List.length_append, List.length_take, List.length_drop, readSize]
        omega
      · simp [rank, hopen]
  | flush n =>
      rw [Flow.move] at h
      split_ifs at h with hno
      obtain rfl := Option.some.inj h
      rw [not_or] at hno
      have hlength : 0 < f.outgoing.length := List.length_pos_iff.mpr hno.1
      simp only [rank, List.length_drop]
      omega

lemma rank_stop (hf : ¬f.stopped) : f.stop.rank < f.rank := by
  have hstopped : (!f.stopped).toNat = 1 := by simp [hf]
  have hfed : (!true).toNat ≤ (!f.fed).toNat := Nat.zero_le _
  simp only [rank, stop]
  rw [hstopped]
  have htrue : (!true).toNat = 0 := rfl
  omega

end Flow

/-! ### Steps -/

variable {s t : State} {e : Event} {d : Direction} {f : Flow}

/-- What a step does. -/
lemma step_cases (h : step s e = some t) :
    (∃ d m f, e = .flow d m ∧ (s d).move m = some f ∧ t = Function.update s d f) ∨
      ∃ d, e = .stop d ∧ ¬(s d.reverse).stopped ∧
        t = Function.update s d.reverse (s d.reverse).stop := by
  cases e with
  | flow d m =>
      obtain ⟨f, hf, rfl⟩ := Option.map_eq_some_iff.mp h
      exact .inl ⟨d, m, f, rfl, hf, rfl⟩
  | stop d =>
      rw [step] at h
      split_ifs at h with hd
      exact .inr ⟨d, rfl, hd.2.2, (Option.some.inj h).symm⟩

lemma forall_update {P : Flow → Prop} (hs : ∀ d, P (s d)) (hf : P f) (d' : Direction) :
    P (Function.update s d f d') := by
  by_cases hd : d' = d
  · subst hd
    simpa using hf
  · simpa [hd] using hs d'

lemma sound_step (hs : ∀ d, (s d).Sound) (h : step s e = some t) (d : Direction) :
    (t d).Sound := by
  obtain ⟨d', m, f, rfl, hf, rfl⟩ | ⟨d', rfl, -, rfl⟩ := step_cases h
  · exact forall_update hs ((hs d').move hf) d
  · exact forall_update hs (hs d'.reverse).stop d

lemma sound_of_path {l : List (State × Event)} (h : tunnel.Path tunnel.init l s) (d : Direction) :
    (s d).Sound := by
  refine System.Path.invariant_of_steps (I := fun s => ∀ d, (s d).Sound) (P := fun _ _ => True)
    (fun s e t hs _ h => sound_step hs h) h (fun d => ?_) (fun _ _ => trivial) d
  exact ⟨rfl, fun h => absurd h Bool.false_ne_true, fun h => absurd h Bool.false_ne_true,
    fun h => absurd h Bool.false_ne_true⟩

/-- **What is delivered was sent**, in order and once. -/
theorem delivered_prefix {l : List (State × Event)} (h : tunnel.Path tunnel.init l s)
    (d : Direction) : (s d).delivered <+: (s d).sent := by
  rw [(sound_of_path h d).kept, List.append_assoc, List.append_assoc]
  exact List.prefix_append _ _

/-! ### Rest -/

/-- The work that is left. -/
def rank (s : State) : ℕ := (s .toUpstream).rank + (s .toClient).rank

lemma rank_eq (s : State) (d : Direction) : rank s = (s d).rank + (s d.reverse).rank := by
  cases d
  · rfl
  · exact Nat.add_comm _ _

lemma rank_update (hf : f.rank < (s d).rank) : rank (Function.update s d f) < rank s := by
  rw [rank_eq _ d, rank_eq s d, Function.update_self, Function.update_of_ne d.reverse_ne]
  omega

/-- A step that no side decides on does some of the work. -/
lemma rank_step (he : e.Internal) (h : step s e = some t) : rank t < rank s := by
  obtain ⟨d, m, f, rfl, hf, rfl⟩ | ⟨d, rfl, hd, rfl⟩ := step_cases h
  · exact rank_update (Flow.rank_move he hf)
  · exact rank_update (Flow.rank_stop hd)

/-- **A tunnel that is left alone comes to rest.** -/
theorem exists_quiet (s : State) :
    ∃ l t, tunnel.Path s l t ∧ Quiet t ∧ ∀ x ∈ l, x.2.Internal := by
  induction hn : rank s using Nat.strong_induction_on generalizing s with
  | _ n ih =>
      by_cases hquiet : Quiet s
      · exact ⟨[], s, System.Path.nil s, hquiet, by simp⟩
      · rw [Quiet] at hquiet
        push Not at hquiet
        obtain ⟨e, he, hstep⟩ := hquiet
        obtain ⟨t, ht⟩ := Option.ne_none_iff_exists'.mp hstep
        obtain ⟨l, u, hpath, hu, hall⟩ := ih (rank t) (hn ▸ rank_step he ht) t rfl
        refine ⟨(s, e) :: l, u, (System.Path.single ht).trans hpath, hu, ?_⟩
        exact List.forall_mem_cons.mpr ⟨he, hall⟩

/-- At rest, everything that was read is delivered, and everything is read unless the
socket is read no more. -/
lemma Quiet.flow (hquiet : Quiet s) (hs : (s d).Sound) :
    (s d).delivered = (s d).sent ↔ ¬(s d).Lost := by
  have hpipe : (s d).pipe = none := by simpa [step, Flow.move] using hquiet (.flow d .pipe) trivial
  have harrive := hquiet (.flow d (.arrive 1)) trivial
  have hflush := hquiet (.flow d (.flush 1)) trivial
  have houtgoing : (s d).outgoing = [] := by simpa [step, Flow.move] using hflush
  have hwire : ¬(s d).stopped → (s d).wire = [] := by simpa [step, Flow.move] using harrive
  have hbuffer : (s d).buffer = [] := by
    rw [Flow.pipe] at hpipe
    split_ifs at hpipe with hclosed hbuffer
    · exact (hs.fed_of_closed hclosed).2
    · exact not_not.mp hbuffer
  have hall : (s d).delivered = (s d).sent ↔ (s d).wire = [] := by
    rw [hs.kept, houtgoing, hbuffer, List.append_nil, List.append_nil]
    exact List.self_eq_append_right
  rw [hall, Flow.Lost, not_and, not_not]
  exact ⟨fun h _ => h, fun h => by_cases h hwire⟩

/-! ### Losses -/

/-- **A step loses something** just when it is not harmless. -/
lemma lost_step (h : step s e = some t) :
    (∃ d, (t d).Lost) ↔ (∃ d, (s d).Lost) ∨ ¬Harmless s e := by
  obtain ⟨d, m, f, rfl, hf, rfl⟩ | ⟨d, rfl, -, rfl⟩ := step_cases h
  · constructor
    · rintro ⟨d', hlost⟩
      by_contra hno
      rw [not_or, not_not, not_exists] at hno
      by_cases hd : d' = d
      · subst hd
        rw [Function.update_self] at hlost
        refine Flow.not_lost_of_move (hno.1 d') ?_ hf hlost
        rintro bytes rfl
        exact hno.2
      · rw [Function.update_of_ne hd] at hlost
        exact hno.1 d' hlost
    -- what is lost stays lost, and a send to a closed socket is lost
    · rintro (⟨d', hlost⟩ | hharm)
      · refine ⟨d', ?_⟩
        by_cases hd : d' = d
        · subst hd
          rw [Function.update_self]
          exact hlost.move hf
        · rwa [Function.update_of_ne hd]
      · refine ⟨d, ?_⟩
        rw [Function.update_self]
        cases m with
        | send bytes =>
            rw [Harmless, Classical.not_imp] at hharm
            rw [Flow.move] at hf
            split_ifs at hf
            obtain rfl := Option.some.inj hf
            exact ⟨hharm.1, by simp [hharm.2]⟩
        | _ => exact absurd trivial hharm
  -- a loop that stops closes the socket of the other direction
  · constructor
    · rintro ⟨d', hlost⟩
      by_cases hd : d' = d.reverse
      · subst hd
        rw [Function.update_self] at hlost
        exact .inr hlost.2
      · rw [Function.update_of_ne hd] at hlost
        exact .inl ⟨d', hlost⟩
    · rintro (⟨d', hlost⟩ | hharm)
      · refine ⟨d', ?_⟩
        by_cases hd : d' = d.reverse
        · subst hd
          rw [Function.update_self]
          exact ⟨rfl, hlost.2⟩
        · rwa [Function.update_of_ne hd]
      · refine ⟨d.reverse, ?_⟩
        rw [Function.update_self]
        exact ⟨rfl, hharm⟩

/-- Something is lost after a run just when one of its steps is not harmless. -/
lemma lost_of_path {l : List (State × Event)} (h : tunnel.Path tunnel.init l s) :
    (∃ d, (s d).Lost) ↔ ∃ x ∈ l, ¬Harmless x.1 x.2 := by
  generalize hinit : tunnel.init = init at h
  induction h with
  | nil =>
      subst hinit
      exact iff_of_false (fun ⟨d, hlost⟩ => Bool.false_ne_true hlost.1) (by simp)
  | @snoc t u l e _ hstep ih =>
      rw [lost_step hstep, ih]
      simp [or_and_right, exists_or]

/-- **When a tunnel loses nothing.** -/
theorem lossless_iff {l : List (State × Event)} (h : tunnel.Path tunnel.init l s)
    (hquiet : Quiet s) :
    (∀ d, (s d).delivered = (s d).sent) ↔ ∀ x ∈ l, Harmless x.1 x.2 := by
  have hlost := not_congr (lost_of_path h)
  push Not at hlost
  rw [← hlost]
  exact forall_congr' fun d => hquiet.flow (sound_of_path h d)

/-! ### Two tunnels -/

/-- With both loops done and everything flushed, nothing is left to do. -/
lemma quiet_of_done (h : ∀ d, (s d).closed ∧ (s d).stopped ∧ (s d).outgoing = []) : Quiet s := by
  intro e he
  cases e with
  | flow d m =>
      obtain ⟨hclosed, hstopped, houtgoing⟩ := h d
      cases m with
      | send bytes => exact he.elim
      | halfClose => exact he.elim
      | _ => simp [step, Flow.move, Flow.pipe, hclosed, hstopped, houtgoing]
  | stop d => simp [step, (h d.reverse).2.1]

/-- A client that half-closes after its request, before the answer comes. -/
def halfClosedEarly : List Event :=
  [.flow .toUpstream (.send [1]), .flow .toUpstream .halfClose, .flow .toUpstream (.arrive 1),
    .flow .toUpstream .arriveEof, .flow .toUpstream .pipe, .flow .toUpstream .pipe,
    .flow .toUpstream (.flush 1), .stop .toUpstream, .flow .toClient (.send [2]),
    .flow .toClient .halfClose, .flow .toClient .pipe, .stop .toClient]

/-- The answer is lost. -/
theorem not_lossless_halfClosedEarly :
    ∃ l s, tunnel.Path tunnel.init l s ∧ Quiet s ∧ (s .toClient).eof ∧
      (s .toClient).sent = [2] ∧ (s .toClient).delivered = [] := by
  have hrun : (tunnel.exec tunnel.init halfClosedEarly).map (fun s => (s .toUpstream, s .toClient))
      = some ({ sent := [1], eof := true, stopped := true, fed := true, closed := true,
                delivered := [1] },
              { sent := [2], eof := true, wire := [2], stopped := true, fed := true,
                closed := true }) := by decide +kernel
  obtain ⟨s, hs, hflows⟩ := Option.map_eq_some_iff.mp hrun
  obtain ⟨hup, hclient⟩ := Prod.mk.inj hflows
  refine ⟨_, s, System.Path.of_exec hs, quiet_of_done fun d => ?_, ?_, ?_, ?_⟩
  · cases d <;> simp [hup, hclient]
  all_goals rw [hclient]

/-- An upstream that half-closes after its answer. -/
def answered : List Event :=
  [.flow .toUpstream (.send [1]), .flow .toUpstream (.arrive 1), .flow .toUpstream .pipe,
    .flow .toUpstream (.flush 1), .flow .toClient (.send [2, 3]), .flow .toClient .halfClose,
    .flow .toClient (.arrive 1), .flow .toClient .pipe, .flow .toClient (.arrive 1),
    .flow .toClient .arriveEof, .flow .toClient .pipe, .flow .toClient .pipe,
    .flow .toClient (.flush 2), .stop .toClient, .flow .toUpstream .pipe, .stop .toUpstream]

/-- Everything is delivered. -/
theorem lossless_answered :
    ∃ l s, tunnel.Path tunnel.init l s ∧ (s .toClient).sent = [2, 3] ∧
      ∀ d, (s d).delivered = (s d).sent := by
  have hrun : (tunnel.exec tunnel.init answered).map (fun s => (s .toUpstream, s .toClient))
      = some ({ sent := [1], stopped := true, fed := true, closed := true, delivered := [1] },
              { sent := [2, 3], eof := true, stopped := true, fed := true, closed := true,
                delivered := [2, 3] }) := by decide +kernel
  have hharmless : ((tunnel.steps tunnel.init answered).all fun x => Harmless x.1 x.2) = true := by
    decide +kernel
  obtain ⟨s, hs, hflows⟩ := Option.map_eq_some_iff.mp hrun
  obtain ⟨hup, hclient⟩ := Prod.mk.inj hflows
  have hquiet : Quiet s := quiet_of_done fun d => by cases d <;> simp [hup, hclient]
  refine ⟨_, s, System.Path.of_exec hs, by rw [hclient], ?_⟩
  exact (lossless_iff (System.Path.of_exec hs) hquiet).mpr fun x hx => by
    simpa using List.all_eq_true.mp hharmless x hx

end Tunnel

end CodexResetProxy
