import CodexResetProxy.Library.Interruption

/-!
What programs do while an invariant of the store limits what their operations answer.

* `Program.Sound`: whatever is answered, within what is expected, a program performs only
  operations that are allowed, and what it returns is acceptable; `Program.Sound.bind`.
* `sound_of_path`: if the allowed operations keep the invariant and their answers are
  expected, then it holds in every run, and what is returned is acceptable.
-/

namespace Interruption

open Transition Machine

variable {σ κ δ α β ω : Type} {Res : ω → Type}

namespace Program

variable (Allowed : ω → Prop) (Expected : (o : ω) → Res o → Prop)

/-- Only allowed operations and acceptable results, for all expected answers. -/
def Sound (Accepted : α → Prop) : Program Res α → Prop
  | .ret a => Accepted a
  | .raise => True
  | .op o next => Allowed o ∧ ∀ r, Expected o r → (next r).Sound Accepted

variable {Allowed Expected}

/-- One sound program after another. -/
theorem Sound.bind {Accepted : α → Prop} {Accepted' : β → Prop} {p : Program Res α}
    {f : α → Program Res β} (hp : p.Sound Allowed Expected Accepted)
    (hf : ∀ a, Accepted a → (f a).Sound Allowed Expected Accepted') :
    (p.bind f).Sound Allowed Expected Accepted' := by
  induction p with
  | ret a => exact hf a hp
  | raise => trivial
  | op o next ih => exact ⟨hp.1, fun r hr => ih r (hp.2 r hr)⟩

/-- An operation that does not fail. -/
lemma eval_op {perform : (o : ω) → σ → Option (Res o × σ)} {o : ω} {r : Res o} {s t : σ}
    (h : perform o s = some (r, t)) (next : Res o → Program Res α) :
    (Program.op o next).eval perform s = (next r).eval perform t := by
  rw [eval, h]

/-- What one program after another comes to. -/
lemma eval_bind (perform : (o : ω) → σ → Option (Res o × σ)) (p : Program Res α)
    (f : α → Program Res β) (s : σ) :
    (p.bind f).eval perform s = (p.eval perform s).bind fun x => (f x.1).eval perform x.2 := by
  induction p generalizing s with
  | ret a => rfl
  | raise => rfl
  | op o next ih =>
      simp only [bind, eval]
      cases perform o s with
      | none => rfl
      | some x => exact ih x.1 x.2

end Program

variable {M : Machine σ κ δ α Res} {Allowed : ω → Prop} {Expected : (o : ω) → Res o → Prop}
  {I : σ → Prop} {Calm : δ → Prop} {Accepted : κ → α → Prop}

/-- The invariant, and what is left of the running call is sound. -/
def SoundAt (Allowed : ω → Prop) (Expected : (o : ω) → Res o → Prop) (I : σ → Prop)
    (Accepted : κ → α → Prop) (c : Config σ κ α Res) : Prop :=
  I c.store ∧ ∀ call p, c.running = some (call, p) → p.Sound Allowed Expected (Accepted call)

/-- **A step** keeps the invariant and leaves a sound program. -/
theorem soundAt_step
    (hop : ∀ o s r t, Allowed o → I s → M.perform o s = some (r, t) → I t ∧ Expected o r)
    (hdisturb : ∀ s d, I s → Calm d → I (M.disturb d s))
    (hbody : ∀ call, (M.body call).Sound Allowed Expected (Accepted call))
    {c c' : Config σ κ α Res} {a : Action κ δ} (hc : SoundAt Allowed Expected I Accepted c)
    (ha : ∀ d, a = .disturb d → Calm d) (hstep : M.step c a = some c') :
    SoundAt Allowed Expected I Accepted c' := by
  obtain ⟨hs, hp⟩ := hc
  have hover : ∀ {t : σ}, I t → SoundAt Allowed Expected I Accepted
      (⟨t, none⟩ : Config σ κ α Res) := fun ht =>
    ⟨ht, fun _ _ heq => absurd heq.symm (Option.some_ne_none _)⟩
  cases step_move hstep with
  | @start s call =>
      refine ⟨hs, fun call' p heq => ?_⟩
      obtain ⟨rfl, rfl⟩ := Prod.mk.inj (Option.some.inj heq)
      exact hbody call
  | @performed s t call o next r hperform =>
      obtain ⟨hallowed, hnext⟩ := hp call _ rfl
      obtain ⟨ht, hr⟩ := hop o s r t hallowed hs hperform
      refine ⟨ht, fun call' p heq => ?_⟩
      obtain ⟨rfl, rfl⟩ := Prod.mk.inj (Option.some.inj heq)
      exact hnext r hr
  | failed | returned | raised | crash => exact hover hs
  | @disturb s running d => exact ⟨hdisturb s d hs (ha d rfl), hp⟩

/-- **What every call returns is acceptable**, and the invariant is kept, in every run
whose disturbances leave it alone. -/
theorem sound_of_path
    (hop : ∀ o s r t, Allowed o → I s → M.perform o s = some (r, t) → I t ∧ Expected o r)
    (hdisturb : ∀ s d, I s → Calm d → I (M.disturb d s))
    (hbody : ∀ call, (M.body call).Sound Allowed Expected (Accepted call))
    {s : σ} {l : List (Config σ κ α Res × Action κ δ)} {c : Config σ κ α Res}
    (hrun : M.system.Path ⟨s, none⟩ l c) (hs : I s)
    (hcalm : ∀ x ∈ l, ∀ d, x.2 = .disturb d → Calm d) :
    I c.store ∧ ∀ call a, c.running = some (call, .ret a) → Accepted call a := by
  have hinit : SoundAt Allowed Expected I Accepted (⟨s, none⟩ : Config σ κ α Res) :=
    ⟨hs, fun _ _ heq => absurd heq.symm (Option.some_ne_none _)⟩
  have hsound : SoundAt Allowed Expected I Accepted c :=
    hrun.invariant_of_steps (I := SoundAt Allowed Expected I Accepted)
      (P := fun _ a => ∀ d, a = .disturb d → Calm d)
      (fun _ _ _ hc ha hstep => soundAt_step hop hdisturb hbody hc ha hstep) hinit hcalm
  exact ⟨hsound.1, fun call a heq => hsound.2 call _ heq⟩

end Interruption
