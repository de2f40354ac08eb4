import Mathlib.Logic.Relation
import Mathlib.Data.List.Nodup
import Mathlib.Order.Nat
import Mathlib.Tactic.Common

/-!
Custody of numbered resources: a store of cells, of which each is held by at
most one party.

A party's holdings are a list of tokens `(c, a)`: it holds cell `c` and knows
`a` of its contents. What one party does is a sequence of elementary moves on
the store and on its own tokens (`Move`): it changes a cell it holds, it takes a
newly allocated cell, it gives up a token it may give up. The tokens of all
other parties are a frame `F` that no move looks at, so that one theorem for
each law serves any number of parties in any interleaving.

* `Kept D H own`: no cell is held twice and every token tells the truth;
  kept by every move beside every frame (`Trade.kept`) and by the drift of
  the environment (`Kept.drift`).
* `Accounted D H own`: every allocated cell is held or finished with; kept as
  long as tokens are given up only where the discipline allows it
  (`Trade.accounted`).
* `Trade.cell`: a cell changes only by moves of the discipline, and not at all
  while nobody holds it (`Trade.cell_of_not_held`).
* `Turn`: a step of a system of parties, with `Turn.kept`, `Turn.accounted` and
  `Turn.cell`, the induction steps for its runs.
-/

namespace Custody

variable {κ α : Type*}

/-- Numbered cells, of which the first `next` have been allocated. -/
structure Store (κ : Type*) where
  cell : ℕ → κ
  next : ℕ

namespace Store

/-- Overwrite one cell. -/
def set (H : Store κ) (c : ℕ) (x : κ) : Store κ :=
  { H with cell := Function.update H.cell c x }

/-- Allocate the next cell. -/
def push (H : Store κ) (x : κ) : Store κ :=
  { cell := Function.update H.cell H.next x, next := H.next + 1 }

@[simp] lemma set_next (H : Store κ) (c : ℕ) (x : κ) : (H.set c x).next = H.next := rfl

@[simp] lemma set_cell_self (H : Store κ) (c : ℕ) (x : κ) : (H.set c x).cell c = x := by
  simp [set]

lemma set_cell_of_ne (H : Store κ) {c d : ℕ} (x : κ) (h : d ≠ c) :
    (H.set c x).cell d = H.cell d := by
  simp [set, h]

@[simp] lemma push_next (H : Store κ) (x : κ) : (H.push x).next = H.next + 1 := rfl

@[simp] lemma push_cell_self (H : Store κ) (x : κ) : (H.push x).cell H.next = x := by
  simp [push]

lemma push_cell_of_ne (H : Store κ) {d : ℕ} (x : κ) (h : d ≠ H.next) :
    (H.push x).cell d = H.cell d := by
  simp [push, h]

end Store

/-- The rules the cells obey: the contents before allocation, what the holder of
a cell may do to it, what may happen to it from outside, what a token says of
the contents, and which tokens may be given up. What a token says is not changed
from outside. -/
structure Discipline (κ α : Type*) where
  blank : κ
  move : κ → κ → Prop
  drift : κ → κ → Prop
  sat : α → κ → Prop
  disposable : α → Prop
  stable : ∀ a x y, drift x y → (sat a x ↔ sat a y)

variable (D : Discipline κ α)

/-- One elementary move of one party, on the store and its own tokens. -/
inductive Move : Store κ × List (ℕ × α) → Store κ × List (ℕ × α) → Prop
  | perm {H : Store κ} {o o' : List (ℕ × α)} (h : o.Perm o') : Move (H, o) (H, o')
  | write {H : Store κ} {c : ℕ} {a a' : α} {o : List (ℕ × α)} {x : κ}
      (h : D.sat a (H.cell c) → D.move (H.cell c) x ∧ D.sat a' x) :
      Move (H, (c, a) :: o) (H.set c x, (c, a') :: o)
  | push {H : Store κ} {o : List (ℕ × α)} {x : κ} {a : α} (hx : D.move D.blank x)
      (ha : D.sat a x) : Move (H, o) (H.push x, (H.next, a) :: o)
  | drop {H : Store κ} {c : ℕ} {a : α} {o : List (ℕ × α)} (h : D.disposable a) :
      Move (H, (c, a) :: o) (H, o)

/-- Any number of moves of one party. -/
abbrev Trade : Store κ × List (ℕ × α) → Store κ × List (ℕ × α) → Prop :=
  Relation.ReflTransGen (Move D)

variable {D}

namespace Trade

lemma perm {H : Store κ} {o o' : List (ℕ × α)} (h : o.Perm o') : Trade D (H, o) (H, o') :=
  .single (.perm h)

lemma write {H : Store κ} {c : ℕ} {a a' : α} {o : List (ℕ × α)} {x : κ}
    (h : D.sat a (H.cell c) → D.move (H.cell c) x ∧ D.sat a' x) :
    Trade D (H, (c, a) :: o) (H.set c x, (c, a') :: o) :=
  .single (.write h)

lemma push {H : Store κ} {o : List (ℕ × α)} {x : κ} {a : α} (hx : D.move D.blank x)
    (ha : D.sat a x) : Trade D (H, o) (H.push x, (H.next, a) :: o) :=
  .single (.push hx ha)

lemma drop {H : Store κ} {c : ℕ} {a : α} {o : List (ℕ × α)} (h : D.disposable a) :
    Trade D (H, (c, a) :: o) (H, o) :=
  .single (.drop h)

end Trade

/-! ### At most one holder, and true tokens -/

variable (D) in
/-- No cell is held twice, every token speaks of an allocated cell and tells the
truth about it, and the cells not allocated are blank. -/
structure Kept (H : Store κ) (own : List (ℕ × α)) : Prop where
  nodup : (own.map Prod.fst).Nodup
  held : ∀ p ∈ own, p.1 < H.next ∧ D.sat p.2 (H.cell p.1)
  blank : ∀ c, H.next ≤ c → H.cell c = D.blank

namespace Kept

variable {H : Store κ} {own own' : List (ℕ × α)}

lemma of_perm (h : Kept D H own) (hp : own.Perm own') : Kept D H own' where
  nodup := (hp.map Prod.fst).nodup_iff.mp h.nodup
  held := fun p hm => h.held p (hp.mem_iff.mpr hm)
  blank := h.blank

/-- The holder changes a cell it holds. -/
lemma write {c : ℕ} {a a' : α} {x : κ} (h : Kept D H ((c, a) :: own))
    (hx : D.sat a' x) : Kept D (H.set c x) ((c, a') :: own) := by
  have hc : c < H.next := (h.held (c, a) (by simp)).1
  have hnot : c ∉ own.map Prod.fst := (List.nodup_cons.mp h.nodup).1
  refine ⟨h.nodup, fun p hp => ?_, fun d hd => ?_⟩
  · rcases List.mem_cons.mp hp with rfl | hp
    · exact ⟨hc, by simpa using hx⟩
    · have hne : p.1 ≠ c := fun he => hnot (he ▸ List.mem_map_of_mem hp)
      rw [Store.set_cell_of_ne H x hne]
      exact h.held p (List.mem_cons_of_mem _ hp)
  · have hne : d ≠ c := fun he => absurd hc (not_lt.mpr (he ▸ hd))
    rw [Store.set_cell_of_ne H x hne]
    exact h.blank d hd

/-- A newly allocated cell belongs to nobody else. -/
lemma push {x : κ} {a : α} (h : Kept D H own) (hx : D.sat a x) :
    Kept D (H.push x) ((H.next, a) :: own) := by
  have hnot : H.next ∉ own.map Prod.fst := by
    intro hm
    obtain ⟨p, hp, he⟩ := List.mem_map.mp hm
    exact absurd (h.held p hp).1 (not_lt.mpr he.ge)
  refine ⟨List.nodup_cons.mpr ⟨hnot, h.nodup⟩, fun p hp => ?_, fun d hd => ?_⟩
  · rcases List.mem_cons.mp hp with rfl | hp
    · exact ⟨Nat.lt_succ_self _, by simpa using hx⟩
    · obtain ⟨hlt, hsat⟩ := h.held p hp
      rw [Store.push_cell_of_ne H x hlt.ne]
      exact ⟨Nat.lt_succ_of_lt hlt, hsat⟩
  · rw [Store.push_next] at hd
    rw [Store.push_cell_of_ne H x (Nat.lt_of_succ_le hd).ne']
    exact h.blank d (Nat.le_of_succ_le hd)

lemma drop {p : ℕ × α} (h : Kept D H (p :: own)) : Kept D H own where
  nodup := (List.nodup_cons.mp h.nodup).2
  held := fun q hq => h.held q (List.mem_cons_of_mem _ hq)
  blank := h.blank

/-- What happens to an allocated cell from outside disturbs no token. -/
lemma drift {c : ℕ} {x : κ} (h : Kept D H own) (hc : c < H.next)
    (hx : D.drift (H.cell c) x) : Kept D (H.set c x) own := by
  refine ⟨h.nodup, fun p hp => ?_, fun d hd => ?_⟩
  · obtain ⟨hlt, hsat⟩ := h.held p hp
    refine ⟨hlt, ?_⟩
    by_cases he : p.1 = c
    · rw [he, Store.set_cell_self]
      rw [he] at hsat
      exact (D.stable p.2 _ _ hx).mp hsat
    · rw [Store.set_cell_of_ne H x he]
      exact hsat
  · have hne : d ≠ c := fun he => absurd hc (not_lt.mpr (he ▸ hd))
    rw [Store.set_cell_of_ne H x hne]
    exact h.blank d hd

end Kept

/-- One move keeps custody beside any frame. -/
lemma Move.kept {p q : Store κ × List (ℕ × α)} (h : Move D p q) (F : List (ℕ × α))
    (hC : Kept D p.1 (p.2 ++ F)) : Kept D q.1 (q.2 ++ F) := by
  cases h with
  | perm hp => exact hC.of_perm (hp.append_right F)
  | @write H c a a' o x hx =>
      have hsat : D.sat a (H.cell c) := (hC.held (c, a) (by simp)).2
      rw [List.cons_append] at hC ⊢
      exact hC.write (hx hsat).2
  | push _ ha => exact Kept.push hC ha
  | drop _ => exact Kept.drop hC

/-- **Custody is kept** by whatever one party does, beside any frame of tokens
of the other parties. -/
theorem Trade.kept {p q : Store κ × List (ℕ × α)} (h : Trade D p q) (F : List (ℕ × α))
    (hC : Kept D p.1 (p.2 ++ F)) : Kept D q.1 (q.2 ++ F) := by
  induction h with
  | refl => exact hC
  | tail _ hm ih => exact hm.kept F ih

/-! ### What becomes of one cell -/

/-- One move changes a cell by at most one move of the discipline. -/
lemma Move.cell {p q : Store κ × List (ℕ × α)} (h : Move D p q) (F : List (ℕ × α))
    (hC : Kept D p.1 (p.2 ++ F)) (d : ℕ) :
    Relation.ReflTransGen D.move (p.1.cell d) (q.1.cell d) := by
  cases h with
  | perm _ => exact .refl
  | @write H c a a' o x hx =>
      by_cases hd : d = c
      · subst hd
        have hsat : D.sat a (H.cell d) := (hC.held (d, a) (by simp)).2
        simpa using Relation.ReflTransGen.single (hx hsat).1
      · simpa [Store.set_cell_of_ne H x hd] using Relation.ReflTransGen.refl
  | @push H o x a hx ha =>
      by_cases hd : d = H.next
      · have hb : H.cell d = D.blank := hC.blank d hd.ge
        subst hd
        simpa [hb] using Relation.ReflTransGen.single hx
      · simpa [Store.push_cell_of_ne H x hd] using Relation.ReflTransGen.refl
  | drop _ => exact .refl

/-- A cell changes only by moves of the discipline. -/
theorem Trade.cell {p q : Store κ × List (ℕ × α)} (h : Trade D p q) (F : List (ℕ × α))
    (hC : Kept D p.1 (p.2 ++ F)) (d : ℕ) :
    Relation.ReflTransGen D.move (p.1.cell d) (q.1.cell d) := by
  induction h with
  | refl => exact .refl
  | tail ht hm ih => exact ih.trans (hm.cell F (Trade.kept ht F hC) d)

/-- An allocated cell that a party does not hold is not changed by it, and it
does not come to hold it. -/
lemma Move.cell_of_not_held {p q : Store κ × List (ℕ × α)} (h : Move D p q) {d : ℕ}
    (hd : d < p.1.next) (hn : d ∉ p.2.map Prod.fst) :
    q.1.cell d = p.1.cell d ∧ d < q.1.next ∧ d ∉ q.2.map Prod.fst := by
  cases h with
  | perm hp => exact ⟨rfl, hd, fun hm => hn ((hp.map Prod.fst).mem_iff.mpr hm)⟩
  | @write H c a a' o x _ =>
      have hne : d ≠ c := fun he => hn (by simp [he])
      exact ⟨Store.set_cell_of_ne H x hne, hd, by simpa using hn⟩
  | @push H o x a _ _ =>
      have hne : d ≠ H.next := fun he => absurd hd (not_lt.mpr he.ge)
      refine ⟨Store.push_cell_of_ne H x hne, Nat.lt_succ_of_lt hd, ?_⟩
      simpa [hne] using hn
  | drop _ => exact ⟨rfl, hd, fun hm => hn (List.mem_cons_of_mem _ hm)⟩

lemma Trade.cell_of_not_held {p q : Store κ × List (ℕ × α)} (h : Trade D p q) {d : ℕ}
    (hd : d < p.1.next) (hn : d ∉ p.2.map Prod.fst) :
    q.1.cell d = p.1.cell d ∧ d < q.1.next ∧ d ∉ q.2.map Prod.fst := by
  induction h with
  | refl => exact ⟨rfl, hd, hn⟩
  | tail _ hm ih =>
      obtain ⟨hcell, hlt, hnot⟩ := ih
      obtain ⟨hcell', hlt', hnot'⟩ := hm.cell_of_not_held hlt hnot
      exact ⟨hcell'.trans hcell, hlt', hnot'⟩

/-! ### Nothing is lost -/

variable (D) in
/-- A cell of which some disposable token would be true: nobody need hold it. -/
def Finished (x : κ) : Prop := ∃ a, D.disposable a ∧ D.sat a x

variable (D) in
/-- Every allocated cell is held or finished with. -/
def Accounted (H : Store κ) (own : List (ℕ × α)) : Prop :=
  ∀ c, c < H.next → c ∈ own.map Prod.fst ∨ Finished D (H.cell c)

lemma Accounted.of_perm {H : Store κ} {own own' : List (ℕ × α)} (h : Accounted D H own)
    (hp : own.Perm own') : Accounted D H own' :=
  fun c hc => (h c hc).imp_left (hp.map Prod.fst).mem_iff.mp

lemma Accounted.drift {H : Store κ} {own : List (ℕ × α)} {c : ℕ} {x : κ}
    (h : Accounted D H own) (hx : D.drift (H.cell c) x) : Accounted D (H.set c x) own := by
  intro d hd
  refine (h d hd).imp_right fun hf => ?_
  by_cases he : d = c
  · subst he
    obtain ⟨a, ha, hsat⟩ := hf
    exact ⟨a, ha, by simpa using (D.stable a _ _ hx).mp hsat⟩
  · rw [Store.set_cell_of_ne H x he]
    exact hf

lemma Move.accounted {p q : Store κ × List (ℕ × α)} (h : Move D p q) (F : List (ℕ × α))
    (hC : Kept D p.1 (p.2 ++ F)) (hA : Accounted D p.1 (p.2 ++ F)) :
    Accounted D q.1 (q.2 ++ F) := by
  cases h with
  | perm hp => exact hA.of_perm (hp.append_right F)
  | @write H c a a' o x _ =>
      intro d hd
      by_cases he : d = c
      · exact Or.inl (by simp [he])
      · rw [Store.set_cell_of_ne H x he]
        exact (hA d hd).imp_left (by simp)
  | @push H o x a _ _ =>
      intro d hd
      by_cases he : d = H.next
      · exact Or.inl (by simp [he])
      · rw [Store.push_cell_of_ne H x he]
        have hlt : d < H.next := lt_of_le_of_ne (Nat.lt_succ_iff.mp hd) he
        exact (hA d hlt).imp_left fun hm => List.mem_cons_of_mem _ hm
  | @drop H c a o ha =>
      intro d hd
      rcases hA d hd with hm | hf
      · rcases List.mem_cons.mp hm with rfl | hm
        · exact Or.inr ⟨a, ha, (hC.held (d, a) (by simp)).2⟩
        · exact Or.inl hm
      · exact Or.inr hf

/-- **Nothing is lost** by whatever one party does, beside any frame, as long as
it gives up tokens only where the discipline allows it. -/
theorem Trade.accounted {p q : Store κ × List (ℕ × α)} (h : Trade D p q) (F : List (ℕ × α))
    (hC : Kept D p.1 (p.2 ++ F)) (hA : Accounted D p.1 (p.2 ++ F)) :
    Accounted D q.1 (q.2 ++ F) := by
  induction h with
  | refl => exact hA
  | tail ht hm ih => exact hm.accounted F (Trade.kept ht F hC) ih

/-! ### A system of parties -/

variable (D) in
/-- One step of a system: a party trades beside the tokens `F` of the others, or
something happens to an allocated cell from outside. -/
inductive Turn : Store κ × List (ℕ × α) → Store κ × List (ℕ × α) → Prop
  | trade {H H' : Store κ} {o o' F own own' : List (ℕ × α)} (h : Trade D (H, o) (H', o'))
      (hown : own.Perm (o ++ F)) (hown' : (o' ++ F).Perm own') : Turn (H, own) (H', own')
  | drift {H : Store κ} {own : List (ℕ × α)} {c : ℕ} {x : κ} (hc : c < H.next)
      (hx : D.drift (H.cell c) x) : Turn (H, own) (H.set c x, own)

namespace Turn

variable {p q : Store κ × List (ℕ × α)}

/-- **Custody is kept** by every step of a system. -/
theorem kept (h : Turn D p q) (hC : Kept D p.1 p.2) : Kept D q.1 q.2 := by
  cases h with
  | trade ht hown hown' => exact (ht.kept _ (hC.of_perm hown)).of_perm hown'
  | drift hc hx => exact hC.drift hc hx

/-- **Nothing is lost** in a step of a system. -/
theorem accounted (h : Turn D p q) (hC : Kept D p.1 p.2) (hA : Accounted D p.1 p.2) :
    Accounted D q.1 q.2 := by
  cases h with
  | trade ht hown hown' =>
      exact (ht.accounted _ (hC.of_perm hown) (hA.of_perm hown)).of_perm hown'
  | drift _ hx => exact hA.drift hx

/-- What the moves of the discipline and the environment keep of a cell is kept
of every cell. -/
theorem cell {I : κ → Prop} (hmove : ∀ x y, I x → D.move x y → I y)
    (hdrift : ∀ x y, I x → D.drift x y → I y) (h : Turn D p q) (hC : Kept D p.1 p.2) (c : ℕ)
    (hI : I (p.1.cell c)) : I (q.1.cell c) := by
  cases h with
  | @trade H H' o o' F own own' ht hown _ =>
      have hmoves : Relation.ReflTransGen D.move (H.cell c) (H'.cell c) :=
        ht.cell F (hC.of_perm hown) c
      change I (H'.cell c)
      generalize H'.cell c = y at hmoves ⊢
      induction hmoves with
      | refl => exact hI
      | tail _ hstep ih => exact hmove _ _ ih hstep
  | @drift H own d x _ hx =>
      by_cases hc : c = d
      · subst hc
        rw [Store.set_cell_self]
        exact hdrift _ _ hI hx
      · rw [Store.set_cell_of_ne H x hc]
        exact hI

/-- A cell that nobody holds stays so, and is changed from outside only. -/
theorem cell_of_not_held {I : κ → Prop} (hdrift : ∀ x y, I x → D.drift x y → I y)
    (h : Turn D p q) {d : ℕ} (hd : d < p.1.next) (hn : d ∉ p.2.map Prod.fst)
    (hI : I (p.1.cell d)) : d < q.1.next ∧ d ∉ q.2.map Prod.fst ∧ I (q.1.cell d) := by
  cases h with
  | @trade H H' o o' F own own' ht hown hown' =>
      have hnot : d ∉ (o ++ F).map Prod.fst := fun hm =>
        hn ((hown.map Prod.fst).mem_iff.mpr hm)
      rw [List.map_append, List.mem_append, not_or] at hnot
      obtain ⟨hcell, hlt, hno⟩ := ht.cell_of_not_held hd hnot.1
      refine ⟨hlt, fun hm => ?_, ?_⟩
      · have hm' := (hown'.map Prod.fst).mem_iff.mpr hm
        rw [List.map_append, List.mem_append] at hm'
        exact hm'.elim hno hnot.2
      · show I (H'.cell d)
        rw [show H'.cell d = H.cell d from hcell]
        exact hI
  | @drift H own c x _ hx =>
      refine ⟨hd, hn, ?_⟩
      by_cases hc : d = c
      · subst hc
        rw [Store.set_cell_self]
        exact hdrift _ _ hI hx
      · rw [Store.set_cell_of_ne H x hc]
        exact hI

end Turn

end Custody
