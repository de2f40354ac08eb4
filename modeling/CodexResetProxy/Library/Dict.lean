import Mathlib.Data.List.Nodup
import Mathlib.Data.List.Perm.Basic
import Mathlib.Tactic.Common

/-!
Dictionaries that remember the order of insertion.

* `List.upsert`: assignment to a key of a list of pairs, in place when the key
  is present and at the end when it is not; `List.without`: deletion of a key.
* `Dict`: a list of pairs with pairwise different keys, which assignment and
  deletion keep; `get?`, `set`, `erase`, `clear`.
* `Dict.items_perm_of_get?` and `Dict.items_set_perm`: a dictionary splits into
  one key and the rest, the rest being the same before and after an assignment
  to that key. Every count over the items goes through these two.
-/

variable {κ ν : Type*} [DecidableEq κ]

namespace List

/-- Assign to a key: in place when it is present, else at the end. -/
def upsert (k : κ) (v : ν) : List (κ × ν) → List (κ × ν)
  | [] => [(k, v)]
  | (k', v') :: l => if k' = k then (k', v) :: l else (k', v') :: upsert k v l

/-- Delete a key. -/
def without (k : κ) (l : List (κ × ν)) : List (κ × ν) := l.filter fun p => p.1 ≠ k

/-- The value at a key. -/
def valueAt (k : κ) : List (κ × ν) → Option ν
  | [] => none
  | (k', v) :: l => if k' = k then some v else valueAt k l

lemma without_cons_self (k : κ) (v : ν) (l : List (κ × ν)) :
    ((k, v) :: l).without k = l.without k := by
  simp [without]

lemma without_cons_of_ne {k k' : κ} (v : ν) (l : List (κ × ν)) (h : k' ≠ k) :
    ((k', v) :: l).without k = (k', v) :: l.without k := by
  simp [without, h]

lemma mem_without {k : κ} {l : List (κ × ν)} {p : κ × ν} :
    p ∈ l.without k ↔ p ∈ l ∧ p.1 ≠ k := by
  simp [without]

lemma without_eq_self {k : κ} {l : List (κ × ν)} (h : k ∉ l.map Prod.fst) :
    l.without k = l := by
  rw [without, filter_eq_self]
  intro p hp
  have hne : p.1 ≠ k := fun he => h (he ▸ mem_map_of_mem hp)
  simpa using hne

lemma map_fst_upsert_subset (k : κ) (v : ν) (l : List (κ × ν)) :
    ∀ x ∈ (l.upsert k v).map Prod.fst, x = k ∨ x ∈ l.map Prod.fst := by
  induction l with
  | nil => simp [upsert]
  | cons p l ih =>
      intro x hx
      rw [upsert] at hx
      split_ifs at hx with h
      · exact Or.inr hx
      · rcases mem_cons.mp hx with rfl | hx
        · exact Or.inr (by simp)
        · exact (ih x hx).imp_right (mem_cons_of_mem _)

lemma nodup_upsert {k : κ} {v : ν} {l : List (κ × ν)} (h : (l.map Prod.fst).Nodup) :
    ((l.upsert k v).map Prod.fst).Nodup := by
  induction l with
  | nil => simp [upsert]
  | cons p l ih =>
      obtain ⟨hp, hl⟩ := nodup_cons.mp h
      rw [upsert]
      split_ifs with hk
      · exact h
      · refine nodup_cons.mpr ⟨fun hm => ?_, ih hl⟩
        rcases map_fst_upsert_subset k v l _ hm with he | hm
        · exact hk he
        · exact hp hm

lemma nodup_without {k : κ} {l : List (κ × ν)} (h : (l.map Prod.fst).Nodup) :
    ((l.without k).map Prod.fst).Nodup :=
  h.sublist (filter_sublist.map Prod.fst)

/-- Assignment puts one pair beside what deletion leaves. -/
lemma upsert_perm {k : κ} (v : ν) {l : List (κ × ν)} (h : (l.map Prod.fst).Nodup) :
    (l.upsert k v).Perm ((k, v) :: l.without k) := by
  induction l with
  | nil => exact .refl _
  | cons p l ih =>
      obtain ⟨k', v'⟩ := p
      obtain ⟨hp, hl⟩ := nodup_cons.mp h
      rw [upsert]
      split_ifs with hk
      · subst hk
        rw [without_cons_self, without_eq_self hp]
      · rw [without_cons_of_ne v' l hk]
        exact ((ih hl).cons _).trans (.swap _ _ _)

/-- A key that is present splits the list into its pair and what deletion
leaves. -/
lemma perm_of_valueAt {k : κ} {v : ν} {l : List (κ × ν)} (h : (l.map Prod.fst).Nodup)
    (hv : l.valueAt k = some v) : l.Perm ((k, v) :: l.without k) := by
  induction l with
  | nil => simp [valueAt] at hv
  | cons p l ih =>
      obtain ⟨k', v'⟩ := p
      obtain ⟨hp, hl⟩ := nodup_cons.mp h
      rw [valueAt] at hv
      split_ifs at hv with hk
      · subst hk
        obtain rfl : v' = v := by simpa using hv
        rw [without_cons_self, without_eq_self hp]
      · rw [without_cons_of_ne v' l hk]
        exact ((ih hl hv).cons _).trans (.swap _ _ _)

lemma valueAt_eq_none {k : κ} {l : List (κ × ν)} :
    l.valueAt k = none ↔ k ∉ l.map Prod.fst := by
  induction l with
  | nil => simp [valueAt]
  | cons p l ih =>
      rw [valueAt]
      split_ifs with hk
      · simp [hk]
      · simp [ih, Ne.symm hk]

lemma valueAt_of_mem {k : κ} {v : ν} {l : List (κ × ν)} (h : (l.map Prod.fst).Nodup)
    (hm : (k, v) ∈ l) : l.valueAt k = some v := by
  induction l with
  | nil => simp at hm
  | cons p l ih =>
      obtain ⟨hp, hl⟩ := nodup_cons.mp h
      rw [valueAt]
      rcases mem_cons.mp hm with rfl | hm
      · simp
      · have hne : p.1 ≠ k := fun he => hp (he ▸ mem_map_of_mem hm)
        rw [if_neg hne]
        exact ih hl hm

lemma valueAt_upsert_of_ne {k k' : κ} (v : ν) (l : List (κ × ν)) (h : k' ≠ k) :
    (l.upsert k v).valueAt k' = l.valueAt k' := by
  induction l with
  | nil => simp [upsert, valueAt, Ne.symm h]
  | cons p l ih =>
      rw [upsert]
      split_ifs with hk
      · have hne : p.1 ≠ k' := fun he => h (he.symm.trans hk)
        simp [valueAt, hne]
      · simp [valueAt, ih]

lemma valueAt_without_of_ne {k k' : κ} (l : List (κ × ν)) (h : k' ≠ k) :
    (l.without k).valueAt k' = l.valueAt k' := by
  induction l with
  | nil => rfl
  | cons p l ih =>
      obtain ⟨k'', v⟩ := p
      by_cases hk : k'' = k
      · subst hk
        rw [without_cons_self, ih, valueAt, if_neg (Ne.symm h)]
      · rw [without_cons_of_ne v l hk, valueAt, valueAt, ih]

lemma valueAt_upsert_self (k : κ) (v : ν) (l : List (κ × ν)) :
    (l.upsert k v).valueAt k = some v := by
  induction l with
  | nil => simp [upsert, valueAt]
  | cons p l ih =>
      rw [upsert]
      split_ifs with hk
      · simp [valueAt, hk]
      · simp [valueAt, hk, ih]

end List

/-- A dictionary: pairs with pairwise different keys, in order of insertion. -/
structure Dict (κ ν : Type*) where
  items : List (κ × ν)
  nodup : (items.map Prod.fst).Nodup

namespace Dict

/-- The dictionary without items. -/
def empty : Dict κ ν := ⟨[], List.nodup_nil⟩

/-- The value at a key. -/
def get? (d : Dict κ ν) (k : κ) : Option ν := d.items.valueAt k

/-- Assignment to a key. -/
def set (d : Dict κ ν) (k : κ) (v : ν) : Dict κ ν := ⟨d.items.upsert k v, List.nodup_upsert d.nodup⟩

/-- Deletion of a key, of no effect when it is absent. -/
def erase (d : Dict κ ν) (k : κ) : Dict κ ν := ⟨d.items.without k, List.nodup_without d.nodup⟩

omit [DecidableEq κ] in
@[simp] lemma items_empty : (empty : Dict κ ν).items = [] := rfl

lemma get?_set_self (d : Dict κ ν) (k : κ) (v : ν) : (d.set k v).get? k = some v :=
  List.valueAt_upsert_self k v d.items

lemma get?_erase_self (d : Dict κ ν) (k : κ) : (d.erase k).get? k = none := by
  refine List.valueAt_eq_none.mpr fun hm => ?_
  obtain ⟨p, hp, rfl⟩ := List.mem_map.mp hm
  exact (List.mem_without.mp hp).2 rfl

lemma get?_set_of_ne (d : Dict κ ν) {k k' : κ} (v : ν) (h : k' ≠ k) :
    (d.set k v).get? k' = d.get? k' :=
  List.valueAt_upsert_of_ne v d.items h

lemma get?_erase_of_ne (d : Dict κ ν) {k k' : κ} (h : k' ≠ k) :
    (d.erase k).get? k' = d.get? k' :=
  List.valueAt_without_of_ne d.items h

lemma get?_of_mem_items {d : Dict κ ν} {p : κ × ν} (h : p ∈ d.items) :
    d.get? p.1 = some p.2 :=
  List.valueAt_of_mem d.nodup h

/-- A dictionary splits into a key that is present and the rest. -/
lemma items_perm_of_get? {d : Dict κ ν} {k : κ} {v : ν} (h : d.get? k = some v) :
    d.items.Perm ((k, v) :: (d.erase k).items) :=
  List.perm_of_valueAt d.nodup h

/-- An assignment leaves the rest as it was. -/
lemma items_set_perm (d : Dict κ ν) (k : κ) (v : ν) :
    (d.set k v).items.Perm ((k, v) :: (d.erase k).items) :=
  List.upsert_perm v d.nodup

lemma items_erase_of_get?_none {d : Dict κ ν} {k : κ} (h : d.get? k = none) :
    (d.erase k).items = d.items :=
  List.without_eq_self (List.valueAt_eq_none.mp h)

lemma mem_items_of_get? {d : Dict κ ν} {k : κ} {v : ν} (h : d.get? k = some v) :
    (k, v) ∈ d.items :=
  (items_perm_of_get? h).mem_iff.mpr (by simp)

lemma mem_of_mem_erase {d : Dict κ ν} {k : κ} {p : κ × ν} (h : p ∈ (d.erase k).items) :
    p ∈ d.items :=
  (List.mem_without.mp h).1

lemma mem_items_set {d : Dict κ ν} {k : κ} {v : ν} {p : κ × ν}
    (h : p ∈ (d.set k v).items) : p = (k, v) ∨ p ∈ (d.erase k).items := by
  simpa using (items_set_perm d k v).mem_iff.mp h

end Dict
