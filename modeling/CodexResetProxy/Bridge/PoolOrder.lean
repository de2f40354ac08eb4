import CodexResetProxy.Bridge.Pool

/-!
The order of the idle connections: every bucket lists its entries as they were
released, and the clock does not run backwards.

* `Pool.Taken`: what the loop of `_checkout` makes of a bucket;
  `Pool.checkout_taken` and `Pool.get?_checkout`: what `_checkout` does to the
  dictionary.
* `Pool.evict_eq`, `Pool.get?_insert`: what `release` does to it.
* `Pool.Change`: what the locked parts of all three methods can do.
* `Pool.Ordered`: no bucket is empty or too long, and each is a part of what was
  released, in that order; `Pool.Ordered.change`: every change keeps it.
* `Pool.Represents`: the shape that follows, with the entries of a bucket sorted
  by the time of their last use (`Pool.Ordered.represents`).
-/

namespace CodexResetProxy

namespace Pool

variable {usable : Idle → Bool} {pool pool' : Pool} {key key' : WebSocketPoolKey}
  {maxIdle : ℕ} {now : ℚ} {released released' : List Idle}

/-! ### `_checkout` -/

/-- A bucket apart: what `_checkout` selects, what it closes, in that order, and
what it leaves. -/
inductive Taken (usable : Idle → Bool) : List Idle → Option Idle → List Idle → List Idle → Prop
  | found {older newer : List Idle} {selected : Idle} (h : usable selected = true)
      (hnewer : ∀ e ∈ newer, usable e = false) :
      Taken usable (older ++ selected :: newer) (some selected) newer.reverse older
  | exhausted {b : List Idle} (h : ∀ e ∈ b, usable e = false) :
      Taken usable b none b.reverse []

/-- The loop of `_checkout` from the end of a bucket. -/
lemma popUsable_taken (usable : Idle → Bool) (b : List Idle) :
    Taken usable b.reverse (popUsable usable b).1 (popUsable usable b).2.1
      (popUsable usable b).2.2.reverse := by
  induction b with
  | nil => exact .exhausted (by simp)
  | cons e b ih =>
      rw [popUsable]
      split_ifs with he
      · rw [List.reverse_cons]
        exact .found he (by simp)
      · -- `e` is stale: it is newer than all the loop still looks at
        have hstale : usable e = false := Bool.eq_false_iff.mpr he
        rw [List.reverse_cons]
        dsimp only
        generalize popUsable usable b = r at ih ⊢
        obtain ⟨selected, stale, left⟩ := r
        generalize hrev : b.reverse = b', left.reverse = left' at ih ⊢
        cases ih with
        | @found older newer selected h hnewer =>
            have htaken : Taken usable (left' ++ selected :: (newer ++ [e])) (some selected)
                (newer ++ [e]).reverse left' := .found h
              (fun e' he' => (List.mem_append.mp he').elim (hnewer e')
                fun hm => (List.mem_singleton.mp hm) ▸ hstale)
            simpa using htaken
        | exhausted h =>
            have htaken : Taken usable (b' ++ [e]) none (b' ++ [e]).reverse [] := .exhausted
              (fun e' he' => (List.mem_append.mp he').elim (h e')
                fun hm => (List.mem_singleton.mp hm) ▸ hstale)
            simpa using htaken

lemma bucket_of_get? {b : List Idle} (h : pool.idle.get? key = some b) :
    pool.bucket key = b := by
  rw [bucket, h, Option.getD_some]

lemma bucket_of_get?_none (h : pool.idle.get? key = none) : pool.bucket key = [] := by
  rw [bucket, h, Option.getD_none]

/-- What `_checkout` does to its bucket. -/
lemma checkout_taken (pool : Pool) (usable : Idle → Bool) (key : WebSocketPoolKey) :
    Taken usable (pool.bucket key) (pool.checkout usable key).selected
      (pool.checkout usable key).stale ((pool.checkout usable key).pool.bucket key) := by
  rw [checkout]
  split
  · rename_i hnone
    rw [bucket_of_get?_none hnone]
    exact .exhausted (by simp)
  · rename_i b hb
    have htaken := popUsable_taken usable b.reverse
    rw [List.reverse_reverse] at htaken
    rw [bucket_of_get? hb]
    dsimp only
    split_ifs with hleft
    · rw [hleft, List.reverse_nil] at htaken
      rwa [bucket_of_get?_none (Dict.get?_erase_self pool.idle key)]
    · rwa [bucket_of_get? (Dict.get?_set_self pool.idle key _)]

/-- `_checkout` keeps no empty bucket under its key. -/
lemma get?_checkout_self_ne (pool : Pool) (usable : Idle → Bool) (key : WebSocketPoolKey) :
    (pool.checkout usable key).pool.idle.get? key ≠ some [] := by
  rw [checkout]
  split
  · rename_i hnone
    simp [hnone]
  · dsimp only
    split_ifs with hleft
    · simp [Dict.get?_erase_self]
    · simp [Dict.get?_set_self, hleft]

/-- `_checkout` leaves the other buckets as they are. -/
lemma get?_checkout_of_ne (pool : Pool) (usable : Idle → Bool) (h : key' ≠ key) :
    (pool.checkout usable key).pool.idle.get? key' = pool.idle.get? key' := by
  rw [checkout]
  split
  · rfl
  · dsimp only
    split_ifs
    · exact Dict.get?_erase_of_ne pool.idle h
    · exact Dict.get?_set_of_ne pool.idle _ h

lemma bucket_congr (h : pool'.idle.get? key = pool.idle.get? key) :
    pool'.bucket key = pool.bucket key := by
  rw [bucket, bucket, h]

lemma Taken.left_isPrefix {b stale left : List Idle} {selected : Option Idle}
    (h : Taken usable b selected stale left) : left <+: b := by
  cases h with
  | found _ _ => exact List.prefix_append _ _
  | exhausted _ => exact List.nil_prefix

/-! ### `release` -/

/-- The loop of `release` drops as many entries from the front of a bucket as it
takes to make room for one. -/
lemma evict_eq (maxIdle : ℕ) (b : List Idle) :
    evict maxIdle b = (b.take (b.length + 1 - maxIdle), b.drop (b.length + 1 - maxIdle)) := by
  induction b with
  | nil => simp [evict]
  | cons e b ih =>
      rw [evict]
      split_ifs with hfull
      · have hcount : (e :: b).length + 1 - maxIdle = (b.length + 1 - maxIdle) + 1 := by
          rw [List.length_cons] at hfull ⊢
          omega
        rw [ih, hcount, List.take_succ_cons, List.drop_succ_cons]
      · have hcount : (e :: b).length + 1 - maxIdle = 0 := by omega
        rw [hcount, List.take_zero, List.drop_zero]

/-- What `release` closes. -/
lemma insert_fst (pool : Pool) (maxIdle : ℕ) (idle : Idle) :
    (pool.insert maxIdle idle).1
      = (pool.bucket idle.key).take ((pool.bucket idle.key).length + 1 - maxIdle) := by
  show (evict maxIdle (pool.bucket idle.key)).1 = _
  rw [evict_eq]

/-- What `release` leaves under the key. -/
lemma get?_insert_self (pool : Pool) (maxIdle : ℕ) (idle : Idle) :
    (pool.insert maxIdle idle).2.idle.get? idle.key = some
      ((pool.bucket idle.key).drop ((pool.bucket idle.key).length + 1 - maxIdle) ++ [idle]) := by
  rw [insert, Dict.get?_set_self, evict_eq]

lemma bucket_insert_self (pool : Pool) (maxIdle : ℕ) (idle : Idle) :
    (pool.insert maxIdle idle).2.bucket idle.key
      = (pool.bucket idle.key).drop ((pool.bucket idle.key).length + 1 - maxIdle) ++ [idle] :=
  bucket_of_get? (get?_insert_self pool maxIdle idle)

/-- `release` leaves the other buckets as they are. -/
lemma get?_insert_of_ne (pool : Pool) (maxIdle : ℕ) (idle : Idle) (h : key ≠ idle.key) :
    (pool.insert maxIdle idle).2.idle.get? key = pool.idle.get? key :=
  Dict.get?_set_of_ne pool.idle _ h

/-! ### Changes of the pool -/

/-- What the locked parts of `_checkout`, `release` and `aclose` can do, at a time
of the clock, to the pool and to the list of what was released. -/
inductive Change (maxIdle : ℕ) (now : ℚ) : Pool → List Idle → Pool → List Idle → Prop
  | stay {pool : Pool} {released : List Idle} : Change maxIdle now pool released pool released
  | checkout {pool : Pool} {released : List Idle} (usable : Idle → Bool)
      (key : WebSocketPoolKey) :
      Change maxIdle now pool released (pool.checkout usable key).pool released
  | insert {pool : Pool} {released : List Idle} {idle : Idle} (hnow : idle.lastUsedAt = now)
      (hmax : 0 < maxIdle) :
      Change maxIdle now pool released (pool.insert maxIdle idle).2 (released ++ [idle])
  | clear {pool : Pool} {released : List Idle} :
      Change maxIdle now pool released pool.clear.2 released

/-- No bucket is empty or too long, each is a part of what was released, in that
order, and what was released is sorted by time. -/
structure Ordered (maxIdle : ℕ) (now : ℚ) (pool : Pool) (released : List Idle) : Prop where
  ne_nil : ∀ key, pool.idle.get? key ≠ some []
  length_le : ∀ key, (pool.bucket key).length ≤ maxIdle
  sublist : ∀ key, (pool.bucket key).Sublist released
  sorted : released.Pairwise fun e e' => e.lastUsedAt ≤ e'.lastUsedAt
  past : ∀ e ∈ released, e.lastUsedAt ≤ now

/-- The shape of the dictionary: no bucket is empty or too long, every entry is
filed under its key, and a bucket is sorted by the time of the last use. -/
structure Represents (maxIdle : ℕ) (pool : Pool) : Prop where
  ne_nil : ∀ p ∈ pool.idle.items, p.2 ≠ []
  length_le : ∀ p ∈ pool.idle.items, p.2.length ≤ maxIdle
  key_eq : ∀ p ∈ pool.idle.items, ∀ e ∈ p.2, e.key = p.1
  sorted : ∀ p ∈ pool.idle.items, p.2.Pairwise fun e e' => e.lastUsedAt ≤ e'.lastUsedAt

lemma Ordered.represents (h : Ordered maxIdle now pool released) : pool.Represents maxIdle := by
  have hbucket : ∀ p ∈ pool.idle.items, pool.bucket p.1 = p.2 :=
    fun p hp => bucket_of_get? (Dict.get?_of_mem_items hp)
  refine ⟨fun p hp hnil => ?_, fun p hp => ?_, pool.filed, fun p hp => ?_⟩
  · have hget := Dict.get?_of_mem_items hp
    rw [hnil] at hget
    exact h.ne_nil p.1 hget
  · rw [← hbucket p hp]
    exact h.length_le p.1
  · rw [← hbucket p hp]
    exact h.sorted.sublist (h.sublist p.1)

/-- A bucket is in the dictionary as long as it is not empty. -/
lemma Ordered.get?_eq (h : Ordered maxIdle now pool released) (key : WebSocketPoolKey) :
    pool.idle.get? key = if pool.bucket key = [] then none else some (pool.bucket key) := by
  cases hget : pool.idle.get? key with
  | none => rw [bucket_of_get?_none hget, if_pos rfl]
  | some b =>
      have hne : b ≠ [] := fun hnil => h.ne_nil key (hnil ▸ hget)
      rw [bucket_of_get? hget, if_neg hne]

lemma Ordered.empty (maxIdle : ℕ) (now : ℚ) : Ordered maxIdle now Pool.empty [] := by
  have hget : ∀ key, Pool.empty.idle.get? key = none := fun _ => rfl
  refine ⟨fun key => ?_, fun key => ?_, fun key => ?_, .nil, by simp⟩
  · simp [hget]
  · simp [bucket_of_get?_none (hget key)]
  · simp [bucket_of_get?_none (hget key)]

/-- The clock goes on. -/
lemma Ordered.later {now' : ℚ} (h : Ordered maxIdle now pool released) (hle : now ≤ now') :
    Ordered maxIdle now' pool released :=
  ⟨h.ne_nil, h.length_le, h.sublist, h.sorted, fun e he => (h.past e he).trans hle⟩

lemma Ordered.checkout (h : Ordered maxIdle now pool released) (usable : Idle → Bool)
    (key : WebSocketPoolKey) :
    Ordered maxIdle now (pool.checkout usable key).pool released := by
  -- each bucket is a prefix of what it was
  have hpre : ∀ key', (pool.checkout usable key).pool.bucket key' <+: pool.bucket key' := by
    intro key'
    by_cases hkey : key' = key
    · rw [hkey]
      exact (checkout_taken pool usable key).left_isPrefix
    · rw [bucket_congr (get?_checkout_of_ne pool usable hkey)]
  refine ⟨fun key' => ?_, fun key' => ?_, fun key' => ?_, h.sorted, h.past⟩
  · by_cases hkey : key' = key
    · rw [hkey]
      exact get?_checkout_self_ne pool usable key
    · rw [get?_checkout_of_ne pool usable hkey]
      exact h.ne_nil key'
  · exact (hpre key').length_le.trans (h.length_le key')
  · exact (hpre key').sublist.trans (h.sublist key')

lemma Ordered.insert {idle : Idle} (h : Ordered maxIdle now pool released)
    (hnow : idle.lastUsedAt = now) (hmax : 0 < maxIdle) :
    Ordered maxIdle now (pool.insert maxIdle idle).2 (released ++ [idle]) := by
  have hpast : ∀ e ∈ released ++ [idle], e.lastUsedAt ≤ now := by
    intro e he
    rcases List.mem_append.mp he with he | he
    · exact h.past e he
    · rw [List.mem_singleton.mp he, hnow]
  have hsorted : (released ++ [idle]).Pairwise fun e e' => e.lastUsedAt ≤ e'.lastUsedAt := by
    refine List.pairwise_append.mpr ⟨h.sorted, List.pairwise_singleton _ _, ?_⟩
    intro e he e' he'
    rw [List.mem_singleton.mp he', hnow]
    exact h.past e he
  -- the bucket of the key drops its oldest, the others stay as they are
  refine ⟨fun key => ?_, fun key => ?_, fun key => ?_, hsorted, hpast⟩
  · by_cases hkey : key = idle.key
    · rw [hkey, get?_insert_self]
      simp
    · rw [get?_insert_of_ne pool maxIdle idle hkey]
      exact h.ne_nil key
  · by_cases hkey : key = idle.key
    · have hle := h.length_le idle.key
      rw [hkey, bucket_insert_self, List.length_append, List.length_drop, List.length_singleton]
      omega
    · rw [bucket_congr (get?_insert_of_ne pool maxIdle idle hkey)]
      exact h.length_le key
  · by_cases hkey : key = idle.key
    · rw [hkey, bucket_insert_self]
      exact ((List.drop_sublist _ _).trans (h.sublist idle.key)).append (.refl _)
    · rw [bucket_congr (get?_insert_of_ne pool maxIdle idle hkey)]
      exact (h.sublist key).trans (List.sublist_append_left _ _)

lemma bucket_clear (pool : Pool) (key : WebSocketPoolKey) : pool.clear.2.bucket key = [] :=
  bucket_of_get?_none rfl

lemma Ordered.clear (h : Ordered maxIdle now pool released) :
    Ordered maxIdle now pool.clear.2 released := by
  have hempty := Ordered.empty maxIdle now
  refine ⟨hempty.ne_nil, hempty.length_le, fun key => ?_, h.sorted, h.past⟩
  rw [bucket_clear]
  exact List.nil_sublist _

/-- **Every change of the pool** keeps its order. -/
theorem Ordered.change (h : Ordered maxIdle now pool released)
    (hchange : Change maxIdle now pool released pool' released') :
    Ordered maxIdle now pool' released' := by
  cases hchange with
  | stay => exact h
  | checkout usable key => exact h.checkout usable key
  | insert hnow hmax => exact h.insert hnow hmax
  | clear => exact h.clear

/-- A change that releases nothing leaves an empty pool empty. -/
lemma Change.entries_eq_nil (hchange : Change maxIdle now pool released pool' released')
    (hsame : released' = released) (hempty : pool.entries = []) : pool'.entries = [] := by
  cases hchange with
  | stay => exact hempty
  | checkout usable key =>
      have hperm := checkout_perm pool usable key
      rw [hempty] at hperm
      exact (List.append_eq_nil_iff.mp hperm.symm.eq_nil).2
  | insert hnow hmax => simp at hsame
  | clear => exact entries_empty

/-- What a change leaves in a bucket was there, or is released by it. -/
lemma Change.bucket_sublist {base new : List Idle}
    (hchange : Change maxIdle now pool released pool' released') (hbase : released = base ++ new)
    (h : (pool.bucket key).Sublist new) :
    ∃ new', released' = base ++ new' ∧ (pool'.bucket key).Sublist new' := by
  cases hchange with
  | stay => exact ⟨new, hbase, h⟩
  | checkout usable key' =>
      refine ⟨new, hbase, ?_⟩
      by_cases hkey : key = key'
      · rw [← hkey]
        exact (checkout_taken pool usable key).left_isPrefix.sublist.trans h
      · rwa [bucket_congr (get?_checkout_of_ne pool usable hkey)]
  | @insert idle hnow hmax =>
      refine ⟨new ++ [idle], by rw [hbase, List.append_assoc], ?_⟩
      by_cases hkey : key = idle.key
      · rw [hkey] at h ⊢
        rw [bucket_insert_self]
        exact ((List.drop_sublist _ _).trans h).append (.refl _)
      · rw [bucket_congr (get?_insert_of_ne pool maxIdle idle hkey)]
        exact h.trans (List.sublist_append_left _ _)
  | clear =>
      refine ⟨new, hbase, ?_⟩
      rw [bucket_clear]
      exact List.nil_sublist _

end Pool

end CodexResetProxy
