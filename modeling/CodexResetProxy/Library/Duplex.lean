import Mathlib.Logic.Relation
import Mathlib.Tactic.Common

/-!
Two deterministic programs that talk over a pair of byte streams.

A program sends, and reads a given number of items; a read is served in pieces, as they
arrive, and the streams deliver in pieces as well. Neither makes a difference to what
the programs compute (`Settles`).

* `Proc`: programs, as a monad; `Config`: two of them, and what is under way.
* `Ends`: one schedule of two programs, with whole reads, in which both return.
* `settles_of_ends`: **if one schedule ends, every run ends**, with the same results
  and the same items left over.
-/

namespace Duplex

/-! ### Programs -/

/-- A program over streams of items `α`, which raises an `ε` or returns a `ρ`. -/
inductive Proc (α ε ρ : Type) where
  | done (r : ρ)
  | raised (e : ε)
  /-- Sends items. -/
  | send (items : List α) (next : Proc α ε ρ)
  /-- Reads `n` items, or goes on with `eof` if the stream ends before. -/
  | recv (n : ℕ) (eof : Proc α ε ρ) (next : List α → Proc α ε ρ)

namespace Proc

variable {α ε ρ σ : Type}

/-- A program that goes on after another one. -/
def bind : Proc α ε ρ → (ρ → Proc α ε σ) → Proc α ε σ
  | done r, f => f r
  | raised e, _ => raised e
  | send items next, f => send items (next.bind f)
  | recv n eof next, f => recv n (eof.bind f) fun items => (next items).bind f

instance : Monad (Proc α ε) where
  pure := done
  bind := bind

@[simp] lemma pure_bind (r : ρ) (f : ρ → Proc α ε σ) : (pure r >>= f) = f r := rfl

@[simp] lemma done_bind (r : ρ) (f : ρ → Proc α ε σ) : (done r >>= f) = f r := rfl

@[simp] lemma raised_bind (e : ε) (f : ρ → Proc α ε σ) : (raised e >>= f) = raised e := rfl

@[simp] lemma send_bind (items : List α) (next : Proc α ε ρ) (f : ρ → Proc α ε σ) :
    (send items next >>= f) = send items (next >>= f) := rfl

@[simp] lemma recv_bind (n : ℕ) (eof : Proc α ε ρ) (next : List α → Proc α ε ρ)
    (f : ρ → Proc α ε σ) :
    (recv n eof next >>= f) = recv n (eof >>= f) fun items => next items >>= f := rfl

lemma bind_assoc {τ : Type} (p : Proc α ε ρ) (f : ρ → Proc α ε σ) (g : σ → Proc α ε τ) :
    (p >>= f >>= g) = p >>= fun r => f r >>= g := by
  induction p with
  | done r => rfl
  | raised e => rfl
  | send items next ih => exact congrArg (send items) ih
  | recv n eof next iheof ihnext =>
      simp only [recv_bind, iheof, ihnext]

/-- What a program does with the input `i`: it goes on with `q` and the input `j`, and
sends `o`. A read is served in pieces. -/
inductive Act : Proc α ε ρ → List α → Proc α ε ρ → List α → List α → Prop
  | send (items : List α) (next : Proc α ε ρ) (i : List α) : Act (send items next) i next i items
  | piece {n : ℕ} {eof : Proc α ε ρ} {next : List α → Proc α ε ρ} {piece : List α} (j : List α)
      (hne : piece ≠ []) (hle : piece.length ≤ n) :
      Act (recv n eof next) (piece ++ j)
        (recv (n - piece.length) eof fun items => next (piece ++ items)) j []
  | whole (eof : Proc α ε ρ) (next : List α → Proc α ε ρ) (i : List α) :
      Act (recv 0 eof next) i (next []) i []

/-- More input makes no difference. -/
lemma Act.append {p q : Proc α ε ρ} {i j o : List α} (h : Act p i q j o) (k : List α) :
    Act p (i ++ k) q (j ++ k) o := by
  cases h with
  | send => exact .send _ _ _
  | piece j hne hle =>
      rw [List.append_assoc]
      exact .piece _ hne hle
  | whole => exact .whole _ _ _

end Proc

/-! ### Configurations -/

/-- A stream: what has been sent and has not arrived, and what has arrived. -/
structure Channel (α : Type) where
  wire : List α
  buffer : List α

/-- All that is under way, in its order. -/
def Channel.items {α : Type} (c : Channel α) : List α := c.buffer ++ c.wire

/-- Two programs, and the streams to them. -/
structure Config (α ε ρ ε' ρ' : Type) where
  left : Proc α ε ρ
  right : Proc α ε' ρ'
  toLeft : Channel α
  toRight : Channel α

variable {α ε ρ ε' ρ' : Type}

/-- The same with the programs exchanged. -/
def Config.swap (c : Config α ε ρ ε' ρ') : Config α ε' ρ' ε ρ :=
  ⟨c.right, c.left, c.toRight, c.toLeft⟩

/-- A step of the left program, or an arrival at it. -/
inductive LeftStep : Config α ε ρ ε' ρ' → Config α ε ρ ε' ρ' → Prop
  | act {p p' : Proc α ε ρ} {q : Proc α ε' ρ'} {w b b' o : List α} {toRight : Channel α}
      (h : p.Act b p' b' o) :
      LeftStep ⟨p, q, ⟨w, b⟩, toRight⟩ ⟨p', q, ⟨w, b'⟩, ⟨toRight.wire ++ o, toRight.buffer⟩⟩
  | arrive {p : Proc α ε ρ} {q : Proc α ε' ρ'} {piece w b : List α} {toRight : Channel α}
      (hne : piece ≠ []) :
      LeftStep ⟨p, q, ⟨piece ++ w, b⟩, toRight⟩ ⟨p, q, ⟨w, b ++ piece⟩, toRight⟩

/-- A step. -/
inductive Step (c d : Config α ε ρ ε' ρ') : Prop
  | left (h : LeftStep c d)
  | right (h : LeftStep c.swap d.swap)

/-- A run. -/
abbrev Run : Config α ε ρ ε' ρ' → Config α ε ρ ε' ρ' → Prop := Relation.ReflTransGen Step

/-- How a run ends: both programs have returned, and this much has arrived at each. -/
structure Outcome (α ρ ρ' : Type) where
  left : ρ
  right : ρ'
  leftOver : List α
  rightOver : List α

/-- The configuration of an outcome. -/
def Outcome.config (o : Outcome α ρ ρ') : Config α ε ρ ε' ρ' :=
  ⟨.done o.left, .done o.right, ⟨[], o.leftOver⟩, ⟨[], o.rightOver⟩⟩

/-- Every run ends, with one outcome: there is no endless run, neither program raises, a
run can always be continued to the outcome, and a run that cannot go on is there. -/
structure Settles (c : Config α ε ρ ε' ρ') (o : Outcome α ρ ρ') : Prop where
  finite : Acc (fun e d => Step d e) c
  left_ne : ∀ d, Run c d → ∀ e, d.left ≠ .raised e
  right_ne : ∀ d, Run c d → ∀ e, d.right ≠ .raised e
  continues : ∀ d, Run c d → Run d o.config
  stuck : ∀ d, Run c d → (∀ e, ¬Step d e) → d = o.config

/-! ### One schedule -/

/-- A schedule in which every read is whole ends with an outcome, and its length. -/
inductive Ends (o : Outcome α ρ ρ') :
    ℕ → Proc α ε ρ → Proc α ε' ρ' → List α → List α → Prop
  | done : Ends o 0 (.done o.left) (.done o.right) o.leftOver o.rightOver
  | leftSend {n : ℕ} {p : Proc α ε ρ} {q : Proc α ε' ρ'} {i j : List α} (items : List α)
      (h : Ends o n p q i (j ++ items)) : Ends o (n + 1) (.send items p) q i j
  | leftRecv {n : ℕ} {eof : Proc α ε ρ} {next : List α → Proc α ε ρ} {q : Proc α ε' ρ'}
      {i j : List α} (items : List α) (h : Ends o n (next items) q i j) :
      Ends o (n + items.length + 1) (.recv items.length eof next) q (items ++ i) j
  | rightSend {n : ℕ} {p : Proc α ε ρ} {q : Proc α ε' ρ'} {i j : List α} (items : List α)
      (h : Ends o n p q (i ++ items) j) : Ends o (n + 1) p (.send items q) i j
  | rightRecv {n : ℕ} {p : Proc α ε ρ} {eof : Proc α ε' ρ'} {next : List α → Proc α ε' ρ'}
      {i j : List α} (items : List α) (h : Ends o n p (next items) i j) :
      Ends o (n + items.length + 1) p (.recv items.length eof next) i (items ++ j)

variable {o : Outcome α ρ ρ'} {n : ℕ} {p p' : Proc α ε ρ} {q : Proc α ε' ρ'}
  {i i' j out : List α} {c d : Config α ε ρ ε' ρ'}

/-- What is left of a schedule after the left program has acted, on its turn or before
it. -/
lemma Ends.act (h : Ends o n p q i j) (hact : p.Act i p' i' out) :
    ∃ m < n, Ends o m p' q i' (j ++ out) := by
  induction h generalizing p' i' out with
  | done => cases hact
  | @leftSend n p q i j items h =>
      cases hact with
      | send => exact ⟨n, Nat.lt_succ_self n, h⟩
  | @leftRecv n eof next q i j items h =>
      rw [← List.append_nil j] at h
      generalize hinput : items ++ i = input at hact
      generalize hlength : items.length = m at hact
      cases hact with
      | @piece _ _ _ piece _ hne hle =>
          -- the piece is the beginning of what the schedule reads at once
          obtain ⟨rest, rfl⟩ : piece <+: items :=
            List.prefix_of_prefix_length_le (List.prefix_append piece _)
              (hinput ▸ List.prefix_append items i) (hlength ▸ hle)
          rw [List.append_assoc] at hinput
          obtain rfl := List.append_cancel_left hinput
          have hpos : 0 < piece.length := List.length_pos_iff.mpr hne
          have hrest : m - piece.length = rest.length := by
            rw [List.length_append] at hlength
            omega
          refine ⟨n + rest.length + 1, by omega, ?_⟩
          rw [hrest]
          exact .leftRecv rest h
      | whole =>
          obtain rfl := List.length_eq_zero_iff.mp hlength
          rw [List.nil_append] at hinput
          exact ⟨n, by omega, hinput ▸ h⟩
  -- the turn of the right program comes later as well
  | @rightSend n p q i j items h ih =>
      obtain ⟨m, hm, h⟩ := ih (hact.append items)
      exact ⟨m + 1, by omega, .rightSend items h⟩
  | @rightRecv n p eof next i j items h ih =>
      obtain ⟨m, hm, h⟩ := ih hact
      refine ⟨m + items.length + 1, by omega, ?_⟩
      rw [List.append_assoc]
      exact .rightRecv items h

/-- A schedule, with the programs exchanged. -/
def Outcome.swap (o : Outcome α ρ ρ') : Outcome α ρ' ρ :=
  ⟨o.right, o.left, o.rightOver, o.leftOver⟩

lemma Ends.swap (h : Ends o n p q i j) : Ends o.swap n q p j i := by
  induction h with
  | done => exact .done
  | leftSend items _ ih => exact .rightSend items ih
  | leftRecv items _ ih => exact .rightRecv items ih
  | rightSend items _ ih => exact .leftSend items ih
  | rightRecv items _ ih => exact .leftRecv items ih

/-- A program that has raised is not in a schedule. -/
lemma Ends.not_raised {e : ε} : ¬Ends o n (.raised e) q i j := by
  intro h
  generalize hp : (Proc.raised e : Proc α ε ρ) = p at h
  induction h with
  | done => cases hp
  | leftSend => cases hp
  | leftRecv => cases hp
  | rightSend _ _ ih => exact ih hp
  | rightRecv _ _ ih => exact ih hp

/-! ### Schedules, rule by rule -/

/-- Some schedule ends. -/
def CanEnd (o : Outcome α ρ ρ') (p : Proc α ε ρ) (q : Proc α ε' ρ') (i j : List α) : Prop :=
  ∃ n, Ends o n p q i j

lemma CanEnd.leftSend {items : List α} (h : CanEnd o p q i (j ++ items)) :
    CanEnd o (.send items p) q i j :=
  let ⟨n, hn⟩ := h
  ⟨n + 1, .leftSend items hn⟩

lemma CanEnd.leftRecv (items : List α) {eof : Proc α ε ρ} {next : List α → Proc α ε ρ}
    (hn : items.length = n) (h : CanEnd o (next items) q i j) :
    CanEnd o (.recv n eof next) q (items ++ i) j := by
  obtain ⟨k, hk⟩ := h
  exact ⟨k + items.length + 1, hn ▸ .leftRecv items hk⟩

lemma CanEnd.swap (h : CanEnd o p q i j) : CanEnd o.swap q p j i :=
  let ⟨n, hn⟩ := h
  ⟨n, hn.swap⟩

lemma CanEnd.rightSend {items : List α} (h : CanEnd o p q (i ++ items) j) :
    CanEnd o p (.send items q) i j :=
  h.swap.leftSend.swap

lemma CanEnd.rightRecv (items : List α) {eof : Proc α ε' ρ'} {next : List α → Proc α ε' ρ'}
    (hn : items.length = n) (h : CanEnd o p (next items) i j) :
    CanEnd o p (.recv n eof next) i (items ++ j) :=
  (h.swap.leftRecv items hn).swap

/-! ### Every run -/

/-- A configuration from which a schedule of a length ends. -/
def Config.Ends (o : Outcome α ρ ρ') (n : ℕ) (c : Config α ε ρ ε' ρ') : Prop :=
  Duplex.Ends o n c.left c.right c.toLeft.items c.toRight.items

/-- What has not arrived. -/
def Config.afloat (c : Config α ε ρ ε' ρ') : ℕ := c.toLeft.wire.length + c.toRight.wire.length

lemma Config.Ends.swap (h : c.Ends o n) : c.swap.Ends o.swap n := Duplex.Ends.swap h

lemma Config.afloat_swap (c : Config α ε ρ ε' ρ') : c.swap.afloat = c.afloat :=
  Nat.add_comm _ _

/-- A step of the left program shortens the schedule; an arrival leaves less afloat. -/
lemma LeftStep.ends (h : c.Ends o n) (hstep : LeftStep c d) :
    ∃ m, d.Ends o m ∧ (m < n ∨ (m = n ∧ d.afloat < c.afloat)) := by
  cases hstep with
  | @act _ _ _ w _ _ _ _ hact =>
      obtain ⟨m, hm, hends⟩ := Duplex.Ends.act h (hact.append w)
      refine ⟨m, ?_, .inl hm⟩
      rw [Config.Ends]
      simpa [Channel.items] using hends
  | @arrive _ _ piece w b _ hne =>
      refine ⟨n, ?_, .inr ⟨rfl, ?_⟩⟩
      · rw [Config.Ends] at h ⊢
        simpa [Channel.items] using h
      · have hpos : 0 < piece.length := List.length_pos_iff.mpr hne
        simp only [Config.afloat, List.length_append]
        omega

lemma Step.ends (h : c.Ends o n) (hstep : Step c d) :
    ∃ m, d.Ends o m ∧ (m < n ∨ (m = n ∧ d.afloat < c.afloat)) := by
  cases hstep with
  | left hstep => exact hstep.ends h
  | right hstep =>
      obtain ⟨m, hends, hless⟩ := hstep.ends h.swap
      rw [Config.afloat_swap, Config.afloat_swap] at hless
      exact ⟨m, hends.swap, hless⟩

lemma Run.ends (h : c.Ends o n) (hrun : Run c d) : ∃ m, d.Ends o m := by
  induction hrun with
  | refl => exact ⟨n, h⟩
  | tail _ hstep ih =>
      obtain ⟨m, hends⟩ := ih
      obtain ⟨k, hends', -⟩ := hstep.ends hends
      exact ⟨k, hends'⟩

/-- Steps come to an end. -/
lemma acc_of_ends (h : c.Ends o n) : Acc (fun e d => Step d e) c := by
  induction n using Nat.strongRecOn generalizing c with
  | _ n ihn =>
      induction hk : c.afloat using Nat.strongRecOn generalizing c with
      | _ k ihk =>
          refine ⟨c, fun d hstep => ?_⟩
          obtain ⟨m, hends, hless | ⟨rfl, hless⟩⟩ := hstep.ends h
          · exact ihn m hless hends
          · exact ihk d.afloat (hk ▸ hless) hends rfl

/-- A read of items that are under way can go on, or some of them can arrive. -/
lemma exists_leftStep {items w b : List α} {eof : Proc α ε ρ} {next : List α → Proc α ε ρ}
    {toRight : Channel α} (hinput : b ++ w = items ++ i) :
    ∃ d, LeftStep ⟨.recv items.length eof next, q, ⟨w, b⟩, toRight⟩ d := by
  cases b with
  | cons x b =>
      cases items with
      | nil => exact ⟨_, .act (.whole _ _ _)⟩
      | cons y items =>
          have hle : [x].length ≤ (y :: items).length := by simp
          exact ⟨_, .act (@Proc.Act.piece _ _ _ _ _ _ [x] b (by simp) hle)⟩
  | nil =>
      cases items with
      | nil => exact ⟨_, .act (.whole _ _ _)⟩
      | cons y items =>
          have hwire : w ++ [] ≠ [] := by
            rw [List.append_nil]
            rintro rfl
            cases hinput
          rw [← List.append_nil w]
          exact ⟨_, .arrive (by simpa using hwire)⟩

/-- Where nothing can happen, everything has arrived. -/
lemma wire_eq_nil {w b : List α} {toRight : Channel α}
    (hstuck : ∀ d, ¬LeftStep ⟨p, q, ⟨w, b⟩, toRight⟩ d) : w = [] := by
  by_contra hne
  rw [← List.append_nil w] at hstuck
  exact hstuck _ (.arrive hne)

/-- Until the schedule has ended, something can happen. -/
lemma Config.Ends.eq_config (h : c.Ends o n) (hstuck : ∀ d, ¬Step c d) : c = o.config := by
  have hleft : ∀ d, ¬LeftStep c d := fun d hstep => hstuck d (.left hstep)
  have hright : ∀ d, ¬LeftStep c.swap d := fun d hstep => hstuck d.swap (.right hstep)
  obtain ⟨p, q, ⟨w, b⟩, ⟨w', b'⟩⟩ := c
  obtain rfl := wire_eq_nil hleft
  obtain rfl := wire_eq_nil hright
  rw [Config.Ends] at h
  simp only [Channel.items, List.append_nil] at h
  cases h with
  | done => rfl
  | leftSend items h => exact (hleft _ (.act (.send _ _ _))).elim
  | leftRecv items h =>
      obtain ⟨d, hstep⟩ := exists_leftStep (List.append_nil _)
      exact (hleft d hstep).elim
  | rightSend items h => exact (hright _ (.act (.send _ _ _))).elim
  | rightRecv items h =>
      obtain ⟨d, hstep⟩ := exists_leftStep (List.append_nil _)
      exact (hright d hstep).elim

/-- **If one schedule ends, every run ends** in the same way. -/
theorem settles_of_ends (h : c.Ends o n) : Settles c o := by
  -- every step keeps the outcome within reach, and there are finitely many
  have hacc : ∀ {d : Config α ε ρ ε' ρ'} {m : ℕ}, d.Ends o m → Run d o.config := by
    intro d m hd
    have := acc_of_ends hd
    induction this generalizing m with
    | intro d _ ih =>
        by_cases hstuck : ∀ e, ¬Step d e
        · rw [hd.eq_config hstuck]
        · push Not at hstuck
          obtain ⟨e, hstep⟩ := hstuck
          obtain ⟨k, he, -⟩ := hstep.ends hd
          exact .head hstep (ih e hstep he)
  constructor
  case finite => exact acc_of_ends h
  case left_ne =>
    intro d hrun e he
    obtain ⟨m, hd⟩ := hrun.ends h
    rw [Config.Ends, he] at hd
    exact hd.not_raised
  case right_ne =>
    intro d hrun e he
    obtain ⟨m, hd⟩ := hrun.ends h
    rw [Config.Ends, he] at hd
    exact hd.swap.not_raised
  case continues =>
    intro d hrun
    obtain ⟨m, hd⟩ := hrun.ends h
    exact hacc hd
  case stuck =>
    intro d hrun hstuck
    obtain ⟨m, hd⟩ := hrun.ends h
    exact hd.eq_config hstuck

end Duplex
