import CodexResetProxy.Library.Duplex

/-!
A program over a stream that is given in advance and then ends.

The stream comes in pieces; how it is cut makes no difference (`yields_eval`).

* `Session`: a program with what is left of its stream and what it has written.
* `Proc.eval`: what a program comes to; `yields_eval`: **every run comes to it**.
* `Proc.Returns`: a program returns; `returns_bind` and the lemmas after it take a program
  apart.
-/

namespace Duplex

/-- A program, what is left of its stream, and what it has written, write by write. -/
structure Session (α ε ρ : Type) where
  proc : Proc α ε ρ
  input : List α
  written : List (List α)

/-- What a program comes to: what it returns or raises, what it leaves of its stream, and
what it has written. -/
structure Result (α ε ρ : Type) where
  outcome : Except ε ρ
  rest : List α
  written : List (List α)

variable {α ε ρ σ : Type}

/-- A write: nothing happens if it is empty. -/
def wrote (items : List α) : List (List α) := if items = [] then [] else [items]

@[simp] lemma wrote_nil : wrote ([] : List α) = [] := rfl

/-- A step: the program acts, or finds the end of its stream. -/
inductive Session.Step : Session α ε ρ → Session α ε ρ → Prop
  | act {p q : Proc α ε ρ} {i j o : List α} {w : List (List α)} (h : p.Act i q j o) :
      Step ⟨p, i, w⟩ ⟨q, j, w ++ wrote o⟩
  | eof {n : ℕ} {eof : Proc α ε ρ} {next : List α → Proc α ε ρ} {w : List (List α)}
      (hn : 0 < n) : Step ⟨.recv n eof next, [], w⟩ ⟨eof, [], w⟩

/-- A run. -/
abbrev Session.Run : Session α ε ρ → Session α ε ρ → Prop := Relation.ReflTransGen Session.Step

/-- The program that has come to an end. -/
def Proc.ended : Except ε ρ → Proc α ε ρ
  | .ok r => .done r
  | .error e => .raised e

/-- The session of a result. -/
def Result.session (r : Result α ε ρ) : Session α ε ρ := ⟨.ended r.outcome, r.rest, r.written⟩

/-- However the stream is cut, the program comes to this: no run is endless, every run can
be continued to it, and a run that cannot go on is there. -/
structure Yields (p : Proc α ε ρ) (i : List α) (r : Result α ε ρ) : Prop where
  finite : Acc (fun t s => Session.Step s t) ⟨p, i, []⟩
  continues : ∀ s, Session.Run ⟨p, i, []⟩ s → Session.Run s r.session
  stuck : ∀ s, Session.Run ⟨p, i, []⟩ s → (∀ t, ¬Session.Step s t) → s = r.session

/-! ### Evaluation -/

/-- The result, with writes in front. -/
def Result.after (w : List (List α)) (r : Result α ε ρ) : Result α ε ρ :=
  { r with written := w ++ r.written }

@[simp] lemma Result.after_nil (r : Result α ε ρ) : r.after [] = r := rfl

@[simp] lemma Result.after_after (w w' : List (List α)) (r : Result α ε ρ) :
    (r.after w').after w = r.after (w ++ w') := by
  simp [Result.after]

/-- What a program comes to. -/
def Proc.eval : Proc α ε ρ → List α → Result α ε ρ
  | .done r, i => ⟨.ok r, i, []⟩
  | .raised e, i => ⟨.error e, i, []⟩
  | .send items next, i => (next.eval i).after (wrote items)
  | .recv n eof next, i =>
      if n ≤ i.length then (next (i.take n)).eval (i.drop n) else eof.eval []

/-- What a session comes to. -/
def Session.result (s : Session α ε ρ) : Result α ε ρ := (s.proc.eval s.input).after s.written

variable {p q : Proc α ε ρ} {i j : List α} {w : List (List α)} {s t : Session α ε ρ}
  {r : ρ} {res : Result α ε ρ}

/-- A piece of a read makes no difference. -/
lemma Proc.Act.eval {o : List α} (h : p.Act i q j o) : p.eval i = (q.eval j).after (wrote o) := by
  cases h with
  | send items next i => rfl
  | @piece n eof next piece j hne hle =>
      rw [wrote_nil, Result.after_nil, Proc.eval, Proc.eval, List.length_append]
      by_cases hlong : n ≤ piece.length + j.length
      · rw [if_pos hlong, if_pos (by omega), List.take_append, List.drop_append,
          List.take_of_length_le hle, List.drop_of_length_le hle]
        rfl
      · rw [if_neg hlong, if_neg (by omega)]
  | whole eof next i =>
      rw [wrote_nil, Result.after_nil, Proc.eval, if_pos (Nat.zero_le _)]
      rfl

/-- A step makes no difference. -/
lemma Session.Step.result_eq (h : Session.Step s t) : t.result = s.result := by
  cases h with
  | act h =>
      rw [Session.result, Session.result]
      dsimp only
      rw [h.eval, Result.after_after]
  | @eof n eof next w hn =>
      have hlong : ¬n ≤ ([] : List α).length := Nat.not_le.mpr hn
      rw [Session.result, Session.result]
      dsimp only
      rw [Proc.eval, if_neg hlong]

lemma Session.Run.result_eq (h : Session.Run s t) : t.result = s.result := by
  induction h with
  | refl => rfl
  | tail _ hstep ih => exact hstep.result_eq.trans ih

/-- A read can always go on. -/
lemma exists_step_recv (n : ℕ) (eof : Proc α ε ρ) (next : List α → Proc α ε ρ) (i : List α)
    (w : List (List α)) : ∃ t, Session.Step ⟨.recv n eof next, i, w⟩ t := by
  rcases Nat.eq_zero_or_pos n with rfl | hn
  · exact ⟨_, .act (.whole eof next i)⟩
  · cases i with
    | nil => exact ⟨_, .eof hn⟩
    | cons x i => exact ⟨_, .act (@Proc.Act.piece _ _ _ _ _ _ [x] i (by simp) hn)⟩

/-- A session that cannot go on has come to its result. -/
lemma Session.eq_of_stuck (hstuck : ∀ t, ¬Session.Step s t) : s = s.result.session := by
  obtain ⟨p, i, w⟩ := s
  cases p with
  | done r => simp [Session.result, Proc.eval, Result.after, Result.session, Proc.ended]
  | raised e => simp [Session.result, Proc.eval, Result.after, Result.session, Proc.ended]
  | send items next => exact absurd (.act (.send items next i)) (hstuck _)
  | recv n eof next =>
      obtain ⟨t, ht⟩ := exists_step_recv n eof next i w
      exact absurd ht (hstuck t)

/-! ### No run is endless -/

/-- A read comes to an end if what follows it does. -/
lemma acc_recv {eof : Proc α ε ρ} (heof : ∀ i w, Acc (fun t s => Session.Step s t) ⟨eof, i, w⟩)
    (n : ℕ) {next : List α → Proc α ε ρ}
    (hnext : ∀ items i w, Acc (fun t s => Session.Step s t) ⟨next items, i, w⟩) (i : List α)
    (w : List (List α)) : Acc (fun t s => Session.Step s t) ⟨.recv n eof next, i, w⟩ := by
  induction n using Nat.strongRecOn generalizing next i w with
  | _ n ih =>
      refine ⟨_, fun t hstep => ?_⟩
      cases hstep with
      | act h =>
          cases h with
          | @piece _ _ _ piece j hne hle =>
              have hpos : 0 < piece.length := List.length_pos_iff.mpr hne
              exact ih _ (by omega) (fun items => hnext (piece ++ items)) _ _
          | whole => exact hnext _ _ _
      | eof hn => exact heof _ _

/-- No run is endless. -/
lemma acc_session (p : Proc α ε ρ) (i : List α) (w : List (List α)) :
    Acc (fun t s => Session.Step s t) ⟨p, i, w⟩ := by
  induction p generalizing i w with
  | done r =>
      refine ⟨_, fun t hstep => ?_⟩
      cases hstep with
      | act h => cases h
  | raised e =>
      refine ⟨_, fun t hstep => ?_⟩
      cases hstep with
      | act h => cases h
  | send items next ih =>
      refine ⟨_, fun t hstep => ?_⟩
      cases hstep with
      | act h =>
          cases h with
          | send => exact ih _ _
  | recv n eof next iheof ihnext => exact acc_recv iheof n ihnext i w

/-- From every session its result is reached. -/
lemma Session.run_result (s : Session α ε ρ) : Session.Run s s.result.session := by
  have hacc : Acc (fun t s => Session.Step s t) s := acc_session _ _ _
  induction hacc with
  | intro s _ ih =>
      by_cases hstuck : ∀ t, ¬Session.Step s t
      · rw [← Session.eq_of_stuck hstuck]
      · push Not at hstuck
        obtain ⟨t, hstep⟩ := hstuck
        rw [← hstep.result_eq]
        exact .head hstep (ih t hstep)

/-- **Every run comes to the result**, however the stream is cut. -/
theorem yields_eval (p : Proc α ε ρ) (i : List α) : Yields p i (p.eval i) where
  finite := acc_session p i []
  continues s hrun := by
    have hresult : s.result = p.eval i := hrun.result_eq
    rw [← hresult]
    exact s.run_result
  stuck s hrun hstuck := by
    have hresult : s.result = p.eval i := hrun.result_eq
    rw [← hresult]
    exact Session.eq_of_stuck hstuck

lemma Result.session_injective :
    Function.Injective (Result.session : Result α ε ρ → Session α ε ρ) := by
  rintro ⟨outcome, rest, written⟩ ⟨outcome', rest', written'⟩ h
  obtain ⟨hproc, rfl, rfl⟩ := Session.mk.inj h
  cases outcome <;> cases outcome' <;> cases hproc <;> rfl

/-- There is one result. -/
lemma Yields.eq_eval (h : Yields p i res) : res = p.eval i := by
  have hrun : Session.Run ⟨p, i, []⟩ (p.eval i).session :=
    (yields_eval p i).continues _ .refl
  have hend : ∀ t, ¬Session.Step (p.eval i).session t := by
    intro t hstep
    cases hout : (p.eval i).outcome <;> rw [Result.session, hout] at hstep <;>
      cases hstep with
      | act h => cases h
  exact Result.session_injective (h.stuck _ hrun hend).symm

/-! ### Programs that return -/

/-- The program returns `r`, leaves `j` of its stream, and has written `w`. -/
def Proc.Returns (p : Proc α ε ρ) (i : List α) (r : ρ) (j : List α) (w : List (List α)) : Prop :=
  p.eval i = ⟨.ok r, j, w⟩

lemma eval_bind (p : Proc α ε ρ) (f : ρ → Proc α ε σ) (i : List α) :
    (p >>= f).eval i =
      match p.eval i with
      | ⟨.ok r, j, w⟩ => ((f r).eval j).after w
      | ⟨.error e, j, w⟩ => ⟨.error e, j, w⟩ := by
  induction p generalizing i with
  | done r => rfl
  | raised e => rfl
  | send items next ih =>
      rw [Proc.send_bind, Proc.eval, Proc.eval, ih]
      obtain ⟨outcome, j, w⟩ := next.eval i
      cases outcome <;> simp [Result.after]
  | recv n eof next iheof ihnext =>
      rw [Proc.recv_bind, Proc.eval, Proc.eval]
      split_ifs with hlong
      · exact ihnext _ _
      · exact iheof _

/-- **A program and what goes on after it** return one after the other. -/
theorem returns_bind {f : ρ → Proc α ε σ} {r' : σ} : (p >>= f).Returns i r' j w ↔
    ∃ r k w₁ w₂, p.Returns i r k w₁ ∧ (f r).Returns k r' j w₂ ∧ w = w₁ ++ w₂ := by
  rw [Proc.Returns, eval_bind]
  rcases hp : p.eval i with ⟨outcome, k, w₁⟩
  constructor
  · intro h
    cases outcome with
    | error e => cases h
    | ok r =>
        rcases hf : (f r).eval k with ⟨outcome', j', w₂⟩
        dsimp only at h
        rw [hf] at h
        obtain ⟨rfl, rfl, rfl⟩ := Result.mk.inj h
        exact ⟨r, k, w₁, w₂, hp, hf, rfl⟩
  · rintro ⟨r, k', w₁', w₂, hp', hf, rfl⟩
    rw [Proc.Returns, hp] at hp'
    obtain ⟨rfl, rfl, rfl⟩ := Result.mk.inj hp'
    dsimp only
    rw [hf]
    rfl

lemma returns_done {r' : ρ} :
    (.done r : Proc α ε ρ).Returns i r' j w ↔ r' = r ∧ j = i ∧ w = [] := by
  simp [Proc.Returns, Proc.eval, eq_comm]

lemma returns_pure {r' : ρ} :
    (pure r : Proc α ε ρ).Returns i r' j w ↔ r' = r ∧ j = i ∧ w = [] := returns_done

lemma not_returns_raised {e : ε} : ¬(.raised e : Proc α ε ρ).Returns i r j w := by
  simp [Proc.Returns, Proc.eval]

lemma returns_send {items : List α} : (Proc.send items p).Returns i r j w ↔
    ∃ w', p.Returns i r j w' ∧ w = wrote items ++ w' := by
  rw [Proc.Returns, Proc.eval, Result.after]
  constructor
  · intro h
    rcases hp : p.eval i with ⟨outcome, j', w'⟩
    rw [hp] at h
    obtain ⟨rfl, rfl, rfl⟩ := Result.mk.inj h
    exact ⟨w', hp, rfl⟩
  · rintro ⟨w', hp, rfl⟩
    rw [hp]

/-- A read: of as many items as there are asked for, or up to the end of the stream. -/
lemma returns_recv_eof {n : ℕ} {eof : Proc α ε ρ} {next : List α → Proc α ε ρ} :
    (Proc.recv n eof next).Returns i r j w ↔
      (∃ items k, i = items ++ k ∧ items.length = n ∧ (next items).Returns k r j w) ∨
        (i.length < n ∧ eof.Returns [] r j w) := by
  rw [Proc.Returns, Proc.eval]
  constructor
  · intro h
    split_ifs at h with hlong
    · exact .inl ⟨_, _, (List.take_append_drop n i).symm, List.length_take_of_le hlong, h⟩
    · exact .inr ⟨Nat.not_le.mp hlong, h⟩
  · rintro (⟨items, k, rfl, rfl, h⟩ | ⟨hshort, h⟩)
    · rw [if_pos (by simp), List.take_left, List.drop_left]
      exact h
    · rw [if_neg (Nat.not_le.mpr hshort)]
      exact h

/-- A read that raises at the end of the stream. -/
lemma returns_recv {n : ℕ} {e : ε} {next : List α → Proc α ε ρ} :
    (Proc.recv n (.raised e) next).Returns i r j w ↔
      ∃ items k, i = items ++ k ∧ items.length = n ∧ (next items).Returns k r j w := by
  rw [returns_recv_eof, or_iff_left fun h => not_returns_raised h.2]

/-- A read, and what goes on after it. -/
lemma returns_read_bind {n : ℕ} {e : ε} {f : List α → Proc α ε ρ} :
    ((Proc.recv n (.raised e) .done : Proc α ε (List α)) >>= f).Returns i r j w ↔
      ∃ items k, i = items ++ k ∧ items.length = n ∧ (f items).Returns k r j w :=
  returns_recv

/-- A write, and what goes on after it. -/
lemma returns_write_bind {items : List α} {f : Unit → Proc α ε ρ} :
    ((Proc.send items (.done ()) : Proc α ε Unit) >>= f).Returns i r j w ↔
      ∃ w', (f ()).Returns i r j w' ∧ w = wrote items ++ w' :=
  returns_send

/-- The program returns `r` and leaves `j` of its stream, whatever it has written. -/
def Proc.Reads (p : Proc α ε ρ) (i : List α) (r : ρ) (j : List α) : Prop := ∃ w, p.Returns i r j w

lemma reads_bind {f : ρ → Proc α ε σ} {r' : σ} :
    (p >>= f).Reads i r' j ↔ ∃ r k, p.Reads i r k ∧ (f r).Reads k r' j := by
  constructor
  · rintro ⟨w, h⟩
    obtain ⟨r, k, w₁, w₂, hp, hf, -⟩ := returns_bind.mp h
    exact ⟨r, k, ⟨w₁, hp⟩, w₂, hf⟩
  · rintro ⟨r, k, ⟨w₁, hp⟩, w₂, hf⟩
    exact ⟨_, returns_bind.mpr ⟨r, k, w₁, w₂, hp, hf, rfl⟩⟩

lemma reads_done {r' : ρ} : (.done r : Proc α ε ρ).Reads i r' j ↔ r' = r ∧ j = i := by
  simp [Proc.Reads, returns_done]

lemma not_reads_raised {e : ε} : ¬(.raised e : Proc α ε ρ).Reads i r j :=
  fun ⟨_, h⟩ => not_returns_raised h

lemma reads_read_bind {n : ℕ} {e : ε} {f : List α → Proc α ε ρ} :
    ((Proc.recv n (.raised e) .done : Proc α ε (List α)) >>= f).Reads i r j ↔
      ∃ items k, i = items ++ k ∧ items.length = n ∧ (f items).Reads k r j := by
  constructor
  · rintro ⟨w, h⟩
    obtain ⟨items, k, hi, hlength, hf⟩ := returns_read_bind.mp h
    exact ⟨items, k, hi, hlength, w, hf⟩
  · rintro ⟨items, k, hi, hlength, w, hf⟩
    exact ⟨w, returns_read_bind.mpr ⟨items, k, hi, hlength, hf⟩⟩

lemma reads_write_bind {items : List α} {f : Unit → Proc α ε ρ} :
    ((Proc.send items (.done ()) : Proc α ε Unit) >>= f).Reads i r j ↔ (f ()).Reads i r j :=
  ⟨fun ⟨_, h⟩ => let ⟨w, hf, _⟩ := returns_write_bind.mp h; ⟨w, hf⟩,
    fun ⟨w, h⟩ => ⟨_, returns_write_bind.mpr ⟨w, h, rfl⟩⟩⟩

/-! ### What is written last -/

/-- After it has written `x` the program returns at once, with a result for which `P`
holds. -/
def Proc.WritesLast (x : List α) (P : ρ → Prop) : Proc α ε ρ → Prop
  | .done _ => True
  | .raised _ => True
  | .send items next => next.WritesLast x P ∧ (items = x → ∃ r, next = .done r ∧ P r)
  | .recv _ eof next => eof.WritesLast x P ∧ ∀ items, (next items).WritesLast x P

variable {x : List α} {P : ρ → Prop}

/-- A program that does not write `x`, and what goes on after it. -/
lemma writesLast_bind {f : ρ → Proc α ε σ} {Q : σ → Prop}
    (hp : p.WritesLast x fun _ => False) (hf : ∀ r, (f r).WritesLast x Q) :
    (p >>= f).WritesLast x Q := by
  induction p with
  | done r => exact hf r
  | raised e => trivial
  | send items next ih =>
      exact ⟨ih hp.1, fun hx => let ⟨_, _, h⟩ := hp.2 hx; h.elim⟩
  | recv n eof next iheof ihnext =>
      exact ⟨iheof hp.1, fun items => ihnext items (hp.2 items)⟩

lemma Proc.WritesLast.eval (h : p.WritesLast x P) (hx : x ∈ (p.eval i).written) :
    ∃ r, (p.eval i).outcome = .ok r ∧ P r := by
  induction p generalizing i with
  | done r => exact absurd hx List.not_mem_nil
  | raised e => exact absurd hx List.not_mem_nil
  | send items next ih =>
      rcases List.mem_append.mp hx with hx | hx
      · rw [wrote] at hx
        split_ifs at hx
        · exact absurd hx List.not_mem_nil
        · obtain ⟨r, rfl, hr⟩ := h.2 (List.mem_singleton.mp hx).symm
          exact ⟨r, rfl, hr⟩
      · exact ih h.1 hx
  | recv n eof next iheof ihnext =>
      rw [Proc.eval] at hx ⊢
      split_ifs at hx ⊢ with hlong
      · exact ihnext _ (h.2 _) hx
      · exact iheof h.1 hx

/-- **Once `x` is written**, at whatever point of a run, the program comes to a result for
which `P` holds. -/
theorem Session.Run.ok_of_writesLast (h : Session.Run ⟨p, i, []⟩ s) (hp : p.WritesLast x P)
    (hx : x ∈ s.written) : ∃ r, (p.eval i).outcome = .ok r ∧ P r := by
  have hresult : s.result = p.eval i := h.result_eq
  refine hp.eval ?_
  rw [← hresult]
  exact List.mem_append_left _ hx

/-! ### Steps that are computed -/

/-- What a program does next with the input `i`: a write, or a read of at most `n` items.
It goes on with what is left of the input, and sends something; `none` while it waits. -/
def Proc.act? (n : ℕ) : Proc α ε ρ → List α → Option (Proc α ε ρ × List α × List α)
  | .send items next, i => some (next, i, items)
  | .recv 0 _ next, i => some (next [], i, [])
  | .recv (m + 1) eof next, i =>
      let piece := i.take (min n (m + 1))
      if piece = [] then none
      else some (.recv (m + 1 - piece.length) eof fun items => next (piece ++ items),
        i.drop piece.length, [])
  | _, _ => none

/-- How a program goes on when its read finds the end of the stream. -/
def Proc.atEnd? : Proc α ε ρ → Option (Proc α ε ρ)
  | .recv (_ + 1) eof _ => some eof
  | _ => none

lemma Proc.act_of_act? {n : ℕ} {o : List α} (h : p.act? n i = some (q, j, o)) :
    p.Act i q j o := by
  cases p with
  | done r => cases h
  | raised e => cases h
  | send items next =>
      cases h
      exact .send _ _ _
  | recv m eof next =>
      cases m with
      | zero =>
          cases h
          exact .whole _ _ _
      | succ m =>
          rw [act?] at h
          generalize hpiece : i.take (min n (m + 1)) = piece at h
          split_ifs at h with hne
          cases h
          have hle : piece.length ≤ m + 1 := by
            rw [← hpiece, List.length_take]
            omega
          -- the piece is what the input begins with
          obtain ⟨rest, rfl⟩ : piece <+: i := hpiece ▸ List.take_prefix _ _
          rw [List.drop_left]
          exact .piece rest hne hle

/-- A step of a program makes no difference, whatever else is to come. -/
lemma Proc.eval_act? {n : ℕ} {o : List α} (h : p.act? n i = some (q, j, o)) (k : List α) :
    p.eval (i ++ k) = (q.eval (j ++ k)).after (wrote o) :=
  ((Proc.act_of_act? h).append k).eval

/-- Nor does it make one that the end of the stream is found. -/
lemma Proc.eval_atEnd? (h : p.atEnd? = some q) : p.eval [] = q.eval [] := by
  cases p with
  | recv n eof next =>
      cases n with
      | zero => cases h
      | succ n =>
          cases h
          rw [Proc.eval, if_neg (by simp)]
  | _ => cases h

/-! ### What a program needs of its stream -/

/-- A program leaves the end of its stream. -/
lemma Proc.rest_suffix (p : Proc α ε ρ) (i : List α) : (p.eval i).rest <:+ i := by
  induction p generalizing i with
  | done r => exact List.suffix_refl i
  | raised e => exact List.suffix_refl i
  | send items next ih => exact ih i
  | recv n eof next iheof ihnext =>
      rw [Proc.eval]
      split_ifs with hlong
      · exact (ihnext _ _).trans (List.drop_suffix n i)
      · exact (iheof []).trans (List.nil_suffix)

/-- **A program needs no more of its stream than it reads.** -/
theorem Proc.Returns.of_append {a : List α} (h : p.Returns (a ++ j) r j w) :
    p.Returns a r [] w := by
  induction p generalizing a w with
  | done r' =>
      obtain ⟨rfl, hj, rfl⟩ := returns_done.mp h
      obtain rfl : a = [] := by simpa using hj
      exact returns_done.mpr ⟨rfl, rfl, rfl⟩
  | raised e => exact absurd h not_returns_raised
  | send items next ih =>
      obtain ⟨w', hnext, rfl⟩ := returns_send.mp h
      exact returns_send.mpr ⟨w', ih hnext, rfl⟩
  | recv n eof next iheof ihnext =>
      rw [Proc.Returns, Proc.eval] at h
      split_ifs at h with hlong
      · have hsuffix := (next ((a ++ j).take n)).rest_suffix ((a ++ j).drop n)
        rw [h] at hsuffix
        have hle := hsuffix.length_le
        simp only [List.length_drop, List.length_append] at hle hlong
        have hn : n ≤ a.length := by omega
        rw [List.take_append_of_le_length hn, List.drop_append_of_le_length hn] at h
        rw [Proc.Returns, Proc.eval, if_pos hn]
        exact ihnext _ h
      · have hsuffix := eof.rest_suffix []
        rw [h] at hsuffix
        obtain rfl : j = [] := List.suffix_nil.mp hsuffix
        rw [List.append_nil] at hlong
        rw [Proc.Returns, Proc.eval, if_neg hlong]
        exact h

end Duplex
