import CodexResetProxy.Library.Transition

/-!
Programs of atomic operations on a store that outlives them, one at a time, which may be
broken off between two operations and disturbed from outside.

* `Program`: a tree of operations, with `do` notation.
* `Machine`: what the operations do, the programs that are called, the disturbances;
  `Machine.system`: calls, operations, crashes and disturbances, in any order;
  `Machine.step_move`: what a step can do.
* `Program.eval`, `Program.Passed`: what a program comes to if nothing interferes, and
  whether it returns without touching a place again.
* `Outline`: assertions for the points of a program, kept by the steps that meet a
  condition; `post_of_outline`: **what a program returns** meets its postcondition, in every
  run of such steps.
-/

namespace Interruption

open Transition

/-! ### Programs -/

/-- A result, an exception, or an operation and what comes after its answer. -/
inductive Program {ω : Type} (Res : ω → Type) (α : Type) where
  | ret (a : α)
  | raise
  | op (o : ω) (next : Res o → Program Res α)

namespace Program

variable {ω : Type} {Res : ω → Type} {α β : Type}

/-- One program, then another. -/
def bind : Program Res α → (α → Program Res β) → Program Res β
  | .ret a, f => f a
  | .raise, _ => .raise
  | .op o next, f => .op o fun r => (next r).bind f

instance : Monad (Program Res) where
  pure := .ret
  bind := .bind

/-- An operation and its answer. -/
def ask (o : ω) : Program Res (Res o) := .op o .ret

lemma bind_ret (p : Program Res α) : p.bind .ret = p := by
  induction p with
  | ret => rfl
  | raise => rfl
  | op o next ih => exact congrArg (Program.op o) (funext ih)

section Undisturbed

variable {σ : Type} (perform : (o : ω) → σ → Option (Res o × σ))

/-- What a program comes to if nothing interferes. -/
def eval : Program Res α → σ → Option (α × σ)
  | .ret a, s => some (a, s)
  | .raise, _ => none
  | .op o next, s =>
      match perform o s with
      | some (r, t) => (next r).eval t
      | none => none

/-- A program returns if nothing interferes, without an operation that touches a place. -/
def Passed (Touches : ω → Prop) : Program Res α → σ → Prop
  | .ret _, _ => True
  | .raise, _ => False
  | .op o next, s =>
      ¬Touches o ∧ match perform o s with
        | some (r, t) => (next r).Passed Touches t
        | none => False

end Undisturbed

end Program

/-! ### Machines -/

/-- What each operation answers and does, where it does not fail; what is called; and what
happens from outside. -/
structure Machine (σ κ δ α : Type) {ω : Type} (Res : ω → Type) where
  init : σ
  perform : (o : ω) → σ → Option (Res o × σ)
  body : κ → Program Res α
  disturb : δ → σ → σ

variable {σ κ δ α ω : Type} {Res : ω → Type} (M : Machine σ κ δ α Res)

namespace Machine

/-- The store, and the call that is running with what is left of it. -/
structure Config (σ κ α : Type) {ω : Type} (Res : ω → Type) where
  store : σ
  running : Option (κ × Program Res α)

/-- A call begins, or goes on, or is broken off; or something happens from outside. -/
inductive Action (κ δ : Type) where
  | start (call : κ)
  | go
  | crash
  | disturb (d : δ)
  deriving DecidableEq

/-- One action. A call that returns or raises is over. -/
def step (c : Config σ κ α Res) : Action κ δ → Option (Config σ κ α Res)
  | .start call =>
      match c.running with
      | none => some ⟨c.store, some (call, M.body call)⟩
      | some _ => none
  | .go =>
      match c.running with
      | some (call, .op o next) =>
          match M.perform o c.store with
          | some (r, s) => some ⟨s, some (call, next r)⟩
          | none => some ⟨c.store, none⟩
      | some (_, .ret _) | some (_, .raise) => some ⟨c.store, none⟩
      | none => none
  | .crash => some ⟨c.store, none⟩
  | .disturb d => some ⟨M.disturb d c.store, c.running⟩

/-- Calls, operations, crashes and disturbances, in any order. -/
def system : System (Config σ κ α Res) (Action κ δ) := ⟨⟨M.init, none⟩, M.step⟩

variable {M}

/-- What an action does. -/
inductive Move (M : Machine σ κ δ α Res) :
    Config σ κ α Res → Action κ δ → Config σ κ α Res → Prop
  | start {s : σ} {call : κ} : Move M ⟨s, none⟩ (.start call) ⟨s, some (call, M.body call)⟩
  | performed {s t : σ} {call : κ} {o : ω} {next : Res o → Program Res α} {r : Res o}
      (hperform : M.perform o s = some (r, t)) :
      Move M ⟨s, some (call, .op o next)⟩ .go ⟨t, some (call, next r)⟩
  | failed {s : σ} {call : κ} {o : ω} {next : Res o → Program Res α}
      (hperform : M.perform o s = none) : Move M ⟨s, some (call, .op o next)⟩ .go ⟨s, none⟩
  | returned {s : σ} {call : κ} {a : α} : Move M ⟨s, some (call, .ret a)⟩ .go ⟨s, none⟩
  | raised {s : σ} {call : κ} : Move M ⟨s, some (call, .raise)⟩ .go ⟨s, none⟩
  | crash {s : σ} {running : Option (κ × Program Res α)} : Move M ⟨s, running⟩ .crash ⟨s, none⟩
  | disturb {s : σ} {running : Option (κ × Program Res α)} {d : δ} :
      Move M ⟨s, running⟩ (.disturb d) ⟨M.disturb d s, running⟩

/-- **A step** is a move. -/
theorem step_move {c c' : Config σ κ α Res} {a : Action κ δ} (hstep : M.step c a = some c') :
    Move M c a c' := by
  obtain ⟨s, running⟩ := c
  cases a with
  | start call =>
      cases running with
      | none =>
          obtain rfl := Option.some.inj hstep
          exact .start
      | some running => cases hstep
  | go =>
      cases running with
      | none => cases hstep
      | some running =>
          obtain ⟨call, p⟩ := running
          cases p with
          | ret a =>
              obtain rfl := Option.some.inj hstep
              exact .returned
          | raise =>
              obtain rfl := Option.some.inj hstep
              exact .raised
          | op o next =>
              rw [step] at hstep
              dsimp only at hstep
              split at hstep
              · rename_i r t hperform
                obtain rfl := Option.some.inj hstep
                exact .performed hperform
              · rename_i hperform
                obtain rfl := Option.some.inj hstep
                exact .failed hperform
  | crash =>
      obtain rfl := Option.some.inj hstep
      exact .crash
  | disturb d =>
      obtain rfl := Option.some.inj hstep
      exact .disturb

/-- A call that nothing interferes with comes to what its program comes to. -/
lemma exists_exec_of_eval {p : Program Res α} {s t : σ} {a : α}
    (h : p.eval M.perform s = some (a, t)) (call : κ) :
    ∃ n, M.system.exec ⟨s, some (call, p)⟩ (List.replicate n .go)
      = some ⟨t, some (call, .ret a)⟩ := by
  induction p generalizing s with
  | ret b =>
      obtain ⟨rfl, rfl⟩ := Prod.mk.inj (Option.some.inj h)
      exact ⟨0, rfl⟩
  | raise => simp [Program.eval] at h
  | op o next ih =>
      rw [Program.eval] at h
      split at h
      · rename_i r u hperform
        obtain ⟨n, hn⟩ := ih r h
        refine ⟨n + 1, ?_⟩
        have hstep : M.step ⟨s, some (call, .op o next)⟩ .go = some ⟨u, some (call, next r)⟩ := by
          rw [step]
          dsimp only
          rw [hperform]
        rw [List.replicate_succ, System.exec_cons, system]
        dsimp only
        rw [hstep]
        exact hn
      · simp at h

end Machine

open Machine

/-! ### Outlines -/

variable (Careful : Config σ κ α Res → Action κ δ → Prop) (I : σ → Prop) (call : κ)

/-- What keeps an assertion for a point of a program: it stands against the disturbances,
and a crash leaves the invariant behind. -/
structure Stable (p : Program Res α) (P : σ → Prop) : Prop where
  disturb : ∀ s d, P s → Careful ⟨s, some (call, p)⟩ (.disturb d) → P (M.disturb d s)
  crash : ∀ s, P s → Careful ⟨s, some (call, p)⟩ .crash → I s

/-- Assertions for the points of a program, from the first on. -/
def Outline (post : α → σ → Prop) : Program Res α → (σ → Prop) → Prop
  | .ret a, P =>
      Stable M Careful I call (.ret a) P ∧ (∀ s, P s → I s) ∧ ∀ s, P s → post a s
  | .raise, P => Stable M Careful I call .raise P ∧ ∀ s, P s → I s
  | .op o next, P =>
      Stable M Careful I call (.op o next) P ∧ (∀ s, P s → M.perform o s = none → I s) ∧
        ∃ Q : Res o → σ → Prop,
          (∀ s r t, P s → Careful ⟨s, some (call, .op o next)⟩ .go →
            M.perform o s = some (r, t) → Q r t) ∧
          ∀ r, Outline post (next r) (Q r)

variable {M Careful I}

/-- The point that is reached has an assertion, and it holds. -/
def Outlined (M : Machine σ κ δ α Res) (Careful : Config σ κ α Res → Action κ δ → Prop)
    (I : σ → Prop) (post : κ → α → σ → Prop) (c : Config σ κ α Res) : Prop :=
  match c.running with
  | none => I c.store
  | some (call, p) => ∃ P, P c.store ∧ Outline M Careful I call (post call) p P

section Runs

variable {post : κ → α → σ → Prop}

lemma Outline.stable {call : κ} {p : Program Res α} {P : σ → Prop}
    (h : Outline M Careful I call (post call) p P) : Stable M Careful I call p P := by
  cases p with
  | ret => exact h.1
  | raise => exact h.1
  | op => exact h.1

/-- **A step** keeps the assertions. -/
theorem outlined_step
    (hstart : ∀ s call, I s → Careful ⟨s, none⟩ (.start call) →
      ∃ P, P s ∧ Outline M Careful I call (post call) (M.body call) P)
    (hdisturb : ∀ s d, I s → Careful ⟨s, none⟩ (.disturb d) → I (M.disturb d s))
    {c c' : Config σ κ α Res} {a : Action κ δ} (hc : Outlined M Careful I post c)
    (ha : Careful c a) (hstep : M.step c a = some c') : Outlined M Careful I post c' := by
  cases step_move hstep with
  | start => exact hstart _ _ hc ha
  | performed hperform =>
      -- the assertion of the point that is reached holds
      obtain ⟨P, hP, -, -, Q, hgo, hnext⟩ := hc
      exact ⟨Q _, hgo _ _ _ hP ha hperform, hnext _⟩
  | failed hperform =>
      obtain ⟨P, hP, -, hraise, -⟩ := hc
      exact hraise _ hP hperform
  | returned =>
      obtain ⟨P, hP, -, hinv, -⟩ := hc
      exact hinv _ hP
  | raised =>
      obtain ⟨P, hP, -, hinv⟩ := hc
      exact hinv _ hP
  | @crash s running =>
      cases running with
      | none => exact hc
      | some running =>
          obtain ⟨P, hP, houtline⟩ := hc
          exact houtline.stable.crash s hP ha
  | @disturb s running d =>
      cases running with
      | none => exact hdisturb s d hc ha
      | some running =>
          obtain ⟨P, hP, houtline⟩ := hc
          exact ⟨P, houtline.stable.disturb s d hP ha, houtline⟩

/-- **What a program returns** meets its postcondition, in every run whose steps meet the
condition. -/
theorem post_of_outline
    (hstart : ∀ s call, I s → Careful ⟨s, none⟩ (.start call) →
      ∃ P, P s ∧ Outline M Careful I call (post call) (M.body call) P)
    (hdisturb : ∀ s d, I s → Careful ⟨s, none⟩ (.disturb d) → I (M.disturb d s))
    (hinit : I M.init) {l : List (Config σ κ α Res × Action κ δ)} {c : Config σ κ α Res}
    (hrun : M.system.Path M.system.init l c) (hcareful : ∀ x ∈ l, Careful x.1 x.2)
    {call : κ} {a : α} (hret : c.running = some (call, .ret a)) : post call a c.store := by
  have houtlined : Outlined M Careful I post c :=
    hrun.invariant_of_steps (fun _ _ _ => outlined_step hstart hdisturb) hinit hcareful
  rw [Outlined, hret] at houtlined
  obtain ⟨P, hP, -, -, hpost⟩ := houtlined
  exact hpost _ hP

end Runs

end Interruption
