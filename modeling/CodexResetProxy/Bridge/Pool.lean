import Mathlib.Data.List.Perm.Lattice
import CodexResetProxy.Bridge.PoolKey
import CodexResetProxy.Library.Dict

/-!
The idle connections of `WebSocketBridgePool`: the parts of `_checkout`,
`release` and `aclose` that run under the lock, where nothing suspends.

* `Pool`: the dictionary of buckets; every entry is filed under its own key.
* `Pool.checkout`, `Pool.insert`, `Pool.clear`: what the locked parts take out
  and put in, with the entries that are left to be closed.
* `Pool.available`: the entries that checkouts take, in their order.
* Each of them only moves entries: `Pool.checkout_perm`, `Pool.insert_perm`.
-/

namespace CodexResetProxy

/-- `IdleWebSocketBridge`: the connection, its key and the time of its last
use. -/
structure Idle where
  conn : ℕ
  key : WebSocketPoolKey
  lastUsedAt : ℚ
  deriving DecidableEq

/-- `_idle`. -/
structure Pool where
  idle : Dict WebSocketPoolKey (List Idle)
  filed : ∀ p ∈ idle.items, ∀ e ∈ p.2, e.key = p.1

namespace Pool

/-- The pool of a new `WebSocketBridgePool`. -/
def empty : Pool := ⟨.empty, by simp⟩

/-- The idle entries of all buckets. -/
def entries (pool : Pool) : List Idle := pool.idle.items.flatMap Prod.snd

/-! ### `_checkout` -/

/-- The loop of `_checkout` over a bucket, taken from its end: the first usable
entry, the entries before it, which are stale, and what is left. -/
def popUsable (usable : Idle → Bool) : List Idle → Option Idle × List Idle × List Idle
  | [] => (none, [], [])
  | candidate :: rest =>
      if usable candidate then (some candidate, [], rest)
      else
        let (selected, stale, left) := popUsable usable rest
        (selected, candidate :: stale, left)

/-- What `_checkout` finds: the selected entry, the stale ones, the pool. -/
structure Checkout where
  selected : Option Idle
  stale : List Idle
  pool : Pool

variable {usable : Idle → Bool} {b : List Idle} {pool : Pool} {key : WebSocketPoolKey}

lemma popUsable_perm (usable : Idle → Bool) (b : List Idle) :
    b.Perm ((popUsable usable b).1.toList ++ (popUsable usable b).2.1 ++
      (popUsable usable b).2.2) := by
  induction b with
  | nil => exact .nil
  | cons e b ih =>
      rw [popUsable]
      split_ifs
      · exact .refl _
      · dsimp only
        have hcons := ih.cons e
        refine hcons.trans ?_
        rw [List.append_assoc, List.append_assoc]
        exact List.perm_middle.symm

lemma mem_of_mem_popUsable {e : Idle} (h : e ∈ (popUsable usable b).1.toList ∨
    e ∈ (popUsable usable b).2.1 ∨ e ∈ (popUsable usable b).2.2) : e ∈ b := by
  refine (popUsable_perm usable b).mem_iff.mpr ?_
  simpa [or_assoc] using h

lemma filed_erase (pool : Pool) (key : WebSocketPoolKey) :
    ∀ p ∈ (pool.idle.erase key).items, ∀ e ∈ p.2, e.key = p.1 :=
  fun p hp => pool.filed p (Dict.mem_of_mem_erase hp)

lemma filed_set (pool : Pool) {key : WebSocketPoolKey} {bucket : List Idle}
    (h : ∀ e ∈ bucket, e.key = key) :
    ∀ p ∈ (pool.idle.set key bucket).items, ∀ e ∈ p.2, e.key = p.1 := by
  intro p hp
  rcases Dict.mem_items_set hp with rfl | hp
  · exact h
  · exact pool.filed_erase key p hp

lemma key_of_get? {bucket : List Idle} (h : pool.idle.get? key = some bucket) :
    ∀ e ∈ bucket, e.key = key :=
  pool.filed (key, bucket) (Dict.mem_items_of_get? h)

/-- The locked part of `_checkout`. -/
def checkout (pool : Pool) (usable : Idle → Bool) (key : WebSocketPoolKey) : Checkout :=
  match h : pool.idle.get? key with
  | none => ⟨none, [], pool⟩
  | some bucket =>
      let r := popUsable usable bucket.reverse
      { selected := r.1
        stale := r.2.1
        pool :=
          if r.2.2 = [] then ⟨pool.idle.erase key, pool.filed_erase key⟩
          else
            ⟨pool.idle.set key r.2.2.reverse, pool.filed_set fun e he =>
              key_of_get? h e (List.mem_reverse.mp
                (mem_of_mem_popUsable (Or.inr (Or.inr (List.mem_reverse.mp he)))))⟩ }

lemma entries_perm_of_get? {bucket : List Idle} (h : pool.idle.get? key = some bucket) :
    pool.entries.Perm (bucket ++ (pool.idle.erase key).items.flatMap Prod.snd) := by
  rw [entries]
  exact (Dict.items_perm_of_get? h).flatMap_right _

lemma flatMap_set_perm (d : Dict WebSocketPoolKey (List Idle)) (key : WebSocketPoolKey)
    (bucket : List Idle) :
    ((d.set key bucket).items.flatMap Prod.snd).Perm
      (bucket ++ (d.erase key).items.flatMap Prod.snd) :=
  (Dict.items_set_perm d key bucket).flatMap_right _

/-- **`_checkout` only moves entries** out of the pool. -/
theorem checkout_perm (pool : Pool) (usable : Idle → Bool) (key : WebSocketPoolKey) :
    pool.entries.Perm ((pool.checkout usable key).selected.toList ++
      (pool.checkout usable key).stale ++ (pool.checkout usable key).pool.entries) := by
  rw [checkout]
  split
  · exact .refl _
  · rename_i bucket h
    dsimp only
    have hbucket : bucket.Perm ((popUsable usable bucket.reverse).1.toList ++
        (popUsable usable bucket.reverse).2.1 ++ (popUsable usable bucket.reverse).2.2) :=
      (List.reverse_perm bucket).symm.trans (popUsable_perm _ _)
    refine (entries_perm_of_get? h).trans ?_
    split_ifs with hleft
    · rw [hleft, List.append_nil] at hbucket
      exact hbucket.append_right _
    · refine (hbucket.append_right _).trans ?_
      rw [List.append_assoc]
      refine List.Perm.append_left _ ?_
      exact ((List.reverse_perm _).append_right _).symm.trans (flatMap_set_perm _ _ _).symm

/-- What `_checkout` finds was filed under the key. -/
lemma key_of_mem_checkout {e : Idle} (h : e ∈ (pool.checkout usable key).selected.toList ++
    (pool.checkout usable key).stale) : e.key = key := by
  rw [checkout] at h
  split at h
  · simp at h
  · rename_i bucket hb
    dsimp only at h
    have hmem : e ∈ bucket.reverse :=
      mem_of_mem_popUsable ((List.mem_append.mp h).imp_right Or.inl)
    exact key_of_get? hb e (List.mem_reverse.mp hmem)

lemma popUsable_congr {usable' : Idle → Bool} (h : ∀ e ∈ b, usable e = usable' e) :
    popUsable usable b = popUsable usable' b := by
  induction b with
  | nil => rfl
  | cons e b ih =>
      rw [popUsable, popUsable, h e List.mem_cons_self,
        ih fun e' he' => h e' (List.mem_cons_of_mem _ he')]

/-- `_checkout` only asks for the entries of the pool whether they are usable. -/
lemma checkout_congr {usable' : Idle → Bool} (h : ∀ e ∈ pool.entries, usable e = usable' e) :
    pool.checkout usable key = pool.checkout usable' key := by
  have hpop : ∀ bucket, pool.idle.get? key = some bucket →
      popUsable usable bucket.reverse = popUsable usable' bucket.reverse := by
    refine fun bucket hbucket => popUsable_congr fun e he => h e ?_
    refine (entries_perm_of_get? hbucket).mem_iff.mpr (List.mem_append_left _ ?_)
    exact List.mem_reverse.mp he
  unfold checkout
  split
  · rfl
  · rename_i bucket hbucket
    simp only [hpop bucket hbucket]

/-! ### `release` -/

/-- The loop of `release` over a bucket: the entries popped from its front, and
those that stay. -/
def evict (maxIdle : ℕ) : List Idle → List Idle × List Idle
  | [] => ([], [])
  | e :: b =>
      if maxIdle ≤ (e :: b).length then (e :: (evict maxIdle b).1, (evict maxIdle b).2)
      else ([], e :: b)

lemma evict_append (maxIdle : ℕ) (b : List Idle) :
    (evict maxIdle b).1 ++ (evict maxIdle b).2 = b := by
  induction b with
  | nil => rfl
  | cons e b ih =>
      rw [evict]
      split_ifs
      · rw [List.cons_append, ih]
      · rfl

/-- The bucket under a key, empty if there is none. -/
def bucket (pool : Pool) (key : WebSocketPoolKey) : List Idle := (pool.idle.get? key).getD []

lemma key_of_mem_bucket {e : Idle} (h : e ∈ pool.bucket key) : e.key = key := by
  rw [bucket] at h
  cases hb : pool.idle.get? key with
  | none => simp [hb] at h
  | some b =>
      rw [hb] at h
      exact key_of_get? hb e h

lemma bucket_perm (pool : Pool) (key : WebSocketPoolKey) :
    pool.entries.Perm (pool.bucket key ++ (pool.idle.erase key).items.flatMap Prod.snd) := by
  rw [bucket]
  cases hb : pool.idle.get? key with
  | none =>
      rw [Option.getD_none, List.nil_append, Dict.items_erase_of_get?_none hb]
      exact .refl _
  | some b => exact entries_perm_of_get? hb

lemma key_of_mem_kept {maxIdle : ℕ} {idle e : Idle}
    (h : e ∈ (evict maxIdle (pool.bucket idle.key)).2 ++ [idle]) : e.key = idle.key := by
  rcases List.mem_append.mp h with h | h
  · have hmem : e ∈ pool.bucket idle.key := by
      rw [← evict_append maxIdle (pool.bucket idle.key)]
      exact List.mem_append_right _ h
    exact key_of_mem_bucket hmem
  · rw [List.mem_singleton.mp h]

/-- The locked part of `release`: the entries to close, and the pool. -/
def insert (pool : Pool) (maxIdle : ℕ) (idle : Idle) : List Idle × Pool :=
  ((evict maxIdle (pool.bucket idle.key)).1,
    ⟨pool.idle.set idle.key ((evict maxIdle (pool.bucket idle.key)).2 ++ [idle]),
      pool.filed_set fun _ => key_of_mem_kept⟩)

/-- **`release` only moves entries**: the new one in, the evicted ones out. -/
theorem insert_perm (pool : Pool) (maxIdle : ℕ) (idle : Idle) :
    (idle :: pool.entries).Perm
      ((pool.insert maxIdle idle).1 ++ (pool.insert maxIdle idle).2.entries) := by
  have hsplit := bucket_perm pool idle.key
  rw [← evict_append maxIdle (pool.bucket idle.key), List.append_assoc] at hsplit
  have hset := flatMap_set_perm pool.idle idle.key
    ((evict maxIdle (pool.bucket idle.key)).2 ++ [idle])
  refine (hsplit.cons idle).trans ?_
  show (idle :: ((evict maxIdle (pool.bucket idle.key)).1 ++ _)).Perm
    ((evict maxIdle (pool.bucket idle.key)).1 ++ _)
  refine List.perm_middle.symm.trans (List.Perm.append_left _ ?_)
  refine List.Perm.trans ?_ hset.symm
  rw [List.append_assoc, List.singleton_append]
  exact List.perm_middle.symm

/-! ### The order of checkouts -/

/-- The usable entries under a key, in the order in which `_checkout` takes
them. -/
def available (pool : Pool) (usable : Idle → Bool) (key : WebSocketPoolKey) : List Idle :=
  (pool.bucket key).reverse.filter usable

lemma popUsable_available (usable : Idle → Bool) (b : List Idle) :
    (popUsable usable b).1 = (b.filter usable).head? ∧
      (popUsable usable b).2.2.filter usable = (b.filter usable).tail := by
  induction b with
  | nil => exact ⟨rfl, rfl⟩
  | cons e b ih =>
      rw [popUsable]
      split_ifs with he
      · simp [he]
      · simpa [he] using ih

/-- **`_checkout` takes the last usable entry** of the bucket, and leaves those
before it. -/
theorem checkout_available (pool : Pool) (usable : Idle → Bool) (key : WebSocketPoolKey) :
    (pool.checkout usable key).selected = (pool.available usable key).head? ∧
      (pool.checkout usable key).pool.available usable key
        = (pool.available usable key).tail := by
  rw [checkout]
  split
  · rename_i hnone
    have hbucket : pool.available usable key = [] := by simp [available, bucket, hnone]
    exact ⟨by simp [hbucket], by simp [hbucket]⟩
  · rename_i b hb
    have hbucket : pool.available usable key = b.reverse.filter usable := by
      simp [available, bucket, hb]
    obtain ⟨hselected, hleft⟩ := popUsable_available usable b.reverse
    rw [hbucket]
    refine ⟨hselected, ?_⟩
    rw [← hleft]
    dsimp only
    split_ifs with hempty
    · simp [available, bucket, Dict.get?_erase_self, hempty]
    · simp [available, bucket, Dict.get?_set_self]

/-! ### `aclose` -/

/-- The locked part of `aclose`: all entries, and the empty pool. -/
def clear (pool : Pool) : List Idle × Pool := (pool.entries, empty)

@[simp] lemma entries_empty : empty.entries = [] := rfl

end Pool

end CodexResetProxy
