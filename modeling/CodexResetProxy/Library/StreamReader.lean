import CodexResetProxy.Library.ByteStr

/-!
`asyncio.StreamReader`, as a reader of the bytes that will have arrived.

A read either finds what it looks for, or meets the end of the stream, or waits
for bytes that do not come. What it finds does not depend on how the bytes were
cut into packets, so the stream is one list.

* `Stream`: what is left to be read, and whether the end of the stream follows.
* `Reading`: computations that read, with what can stop them.
* `readexactly`, `readuntil`, `readline`: the methods of these names, with the
  limit of `readuntil` on what precedes a separator.
-/

namespace StreamReader

open ByteStr

variable {ε α β : Type}

/-- The bytes that are left, and whether the peer sends EOF after them. -/
structure Stream where
  bytes : Bytes
  eof : Bool
  deriving DecidableEq

/-- What stops a computation: it waits for bytes that do not come; it raises
`IncompleteReadError` with what it got, `LimitOverrunError`, `ValueError`, or an
exception of its own. -/
inductive Stop (ε : Type) where
  | waiting
  | incomplete (part : Bytes)
  | limitOverrun
  | value
  | raised (e : ε)
  deriving DecidableEq

/-- A computation that reads. -/
abbrev Reading (ε α : Type) := StateT Stream (Except (Stop ε)) α

/-- The computation ends, and is not given a result. -/
def stop (why : Stop ε) : Reading ε α := fun _ => .error why

/-- There is not enough left. -/
def Stream.short (s : Stream) : Stop ε := if s.eof then .incomplete s.bytes else .waiting

/-- `readexactly`. -/
def readexactly (n : ℤ) : Reading ε Bytes := fun s =>
  if n < 0 then .error .value
  else if s.bytes.length < n then .error s.short
  else .ok (s.bytes.take n.toNat, { s with bytes := s.bytes.drop n.toNat })

/-- `readuntil`. -/
def readuntil (limit : ℕ) (sep : Bytes) : Reading ε Bytes := fun s =>
  match find sep s.bytes with
  | some i =>
      if limit < i then .error .limitOverrun
      else .ok (s.bytes.take (i + sep.length), { s with bytes := s.bytes.drop (i + sep.length) })
  | none => if limit + sep.length < s.bytes.length + 1 then .error .limitOverrun else .error s.short

/-- `readline`: what is left before EOF is a line as well. -/
def readline (limit : ℕ) : Reading ε Bytes := fun s =>
  match readuntil limit [0x0a] s with
  | .ok r => .ok r
  | .error (.incomplete part) => .ok (part, { s with bytes := [] })
  | .error .limitOverrun => .error .value
  | .error e => .error e

/-! ### What is read -/

variable {limit : ℕ} {eof : Bool} {a b t : Bytes}

@[simp] lemma stop_eq_error (why : Stop ε) (s : Stream) :
    (stop why : Reading ε α) s = .error why := rfl

/-- A sequence of computations succeeds just when its parts do. -/
lemma bind_eq_ok {m : Reading ε α} {f : α → Reading ε β} {s u : Stream} {y : β} :
    (m >>= f) s = .ok (y, u) ↔ ∃ x t, m s = .ok (x, t) ∧ f x t = .ok (y, u) := by
  show (m s >>= fun p => f p.1 p.2) = _ ↔ _
  cases m s with
  | error e => simp [bind, Except.bind]
  | ok p =>
      obtain ⟨x, t⟩ := p
      simp [bind, Except.bind]

lemma bind_of_ok {m : Reading ε α} {f : α → Reading ε β} {s t : Stream} {x : α}
    (h : m s = .ok (x, t)) : (m >>= f) s = f x t := by
  show (m s >>= fun p => f p.1 p.2) = _
  rw [h]
  rfl

lemma bind_of_error {m : Reading ε α} {f : α → Reading ε β} {s : Stream} {why : Stop ε}
    (h : m s = .error why) : (m >>= f) s = .error why := by
  show (m s >>= fun p => f p.1 p.2) = _
  rw [h]
  rfl

/-- Bytes that have arrived are read. -/
lemma readexactly_append (a t : Bytes) (eof : Bool) :
    (readexactly a.length : Reading ε Bytes) ⟨a ++ t, eof⟩ = .ok (a, ⟨t, eof⟩) := by
  rw [readexactly, if_neg (by omega), if_neg (by simp)]
  simp

/-- What starts with a byte is not found before that byte. -/
lemma find_append {c : UInt8} {sep : Bytes} (ha : c ∉ a) (t : Bytes) :
    find (c :: sep) (a ++ t) = (find (c :: sep) t).map (a.length + ·) := by
  induction a with
  | nil => simp
  | cons d a ih =>
      rw [List.mem_cons, not_or] at ha
      have hd : ¬(c :: sep).isPrefixOf (d :: (a ++ t)) := by simp [List.isPrefixOf, ha.1]
      rw [List.cons_append, find, if_neg hd, ih ha.2, Option.map_map]
      congr 1
      funext i
      simp only [Function.comp_apply, List.length_cons]
      omega

/-- What a text starts with is found at once. -/
lemma find_prefix {sep : Bytes} (hsep : sep ≠ []) (t : Bytes) : find sep (sep ++ t) = some 0 := by
  obtain ⟨c, sep, rfl⟩ := List.exists_cons_of_ne_nil hsep
  rw [List.cons_append, find, if_pos]
  exact List.isPrefixOf_iff_prefix.mpr ⟨t, rfl⟩

/-- A byte is found where it first occurs. -/
lemma find_singleton {c : UInt8} (ha : c ∉ a) : find [c] (a ++ c :: t) = some a.length := by
  have hzero : find [c] (c :: t) = some 0 := find_prefix (List.cons_ne_nil c []) t
  rw [find_append ha, hzero]
  rfl

/-- **What is found** within the limit is read with the separator. -/
theorem readuntil_of_find {sep : Bytes} (hfind : find sep (a ++ sep ++ t) = some a.length)
    (eof : Bool) : (readuntil limit sep : Reading ε Bytes) ⟨a ++ sep ++ t, eof⟩
      = if limit < a.length then .error .limitOverrun else .ok (a ++ sep, ⟨t, eof⟩) := by
  rw [readuntil, hfind]
  dsimp only
  rw [← List.length_append, List.take_left, List.drop_left]

/-- **A line** that has arrived is read, if it is not too long. -/
theorem readline_line (ha : 0x0a ∉ a) (t : Bytes) (eof : Bool) :
    (readline limit : Reading ε Bytes) ⟨a ++ 0x0a :: t, eof⟩
      = if limit < a.length then .error .value else .ok (a ++ [0x0a], ⟨t, eof⟩) := by
  have hsplit : a ++ 0x0a :: t = a ++ [0x0a] ++ t := by simp
  have huntil := @readuntil_of_find ε limit a t [0x0a] (hsplit ▸ find_singleton ha) eof
  rw [hsplit, readline, huntil]
  by_cases hlimit : limit < a.length
  · simp [hlimit]
  · simp [hlimit]

lemma readline_append (ha : 0x0a ∉ a) (hlimit : a.length ≤ limit) (t : Bytes) (eof : Bool) :
    (readline limit : Reading ε Bytes) ⟨a ++ 0x0a :: t, eof⟩ = .ok (a ++ [0x0a], ⟨t, eof⟩) := by
  rw [readline_line ha, if_neg (by omega)]

/-! ### What is left -/

lemma readexactly_eq_ok {n : ℤ} {s u : Stream}
    (h : (readexactly n : Reading ε Bytes) s = .ok (a, u)) :
    s = ⟨a ++ u.bytes, u.eof⟩ ∧ (a.length : ℤ) = n := by
  rw [readexactly] at h
  split_ifs at h with hneg hshort
  obtain ⟨rfl, rfl⟩ := Prod.mk.inj (Except.ok.inj h)
  refine ⟨?_, ?_⟩
  · rw [List.take_append_drop]
  · rw [List.length_take]
    omega

lemma readuntil_eq_ok {sep : Bytes} {s u : Stream}
    (h : (readuntil limit sep : Reading ε Bytes) s = .ok (a, u)) :
    s = ⟨a ++ u.bytes, u.eof⟩ ∧
      ∃ i, find sep s.bytes = some i ∧ a = s.bytes.take (i + sep.length) := by
  rw [readuntil] at h
  split at h
  · rename_i i hi
    split_ifs at h
    obtain ⟨rfl, rfl⟩ := Prod.mk.inj (Except.ok.inj h)
    exact ⟨by rw [List.take_append_drop], i, hi, rfl⟩
  · split_ifs at h

lemma length_le_of_find {sep s : Bytes} {i : ℕ} (h : find sep s = some i) :
    i + sep.length ≤ s.length := by
  induction s generalizing i with
  | nil =>
      rw [find] at h
      split_ifs at h with hsep
      obtain rfl := Option.some.inj h
      simp [hsep]
  | cons c s ih =>
      rw [find] at h
      split_ifs at h with hsep
      · obtain rfl := Option.some.inj h
        have := (List.isPrefixOf_iff_prefix.mp hsep).length_le
        omega
      · obtain ⟨j, hj, rfl⟩ := Option.map_eq_some_iff.mp h
        have := ih hj
        rw [List.length_cons]
        omega

/-- What `readline` reads. -/
lemma readline_eq_firstLine {s u : Stream}
    (h : (readline limit : Reading ε Bytes) s = .ok (a, u)) :
    a = firstLine s.bytes ∧ s = ⟨a ++ u.bytes, u.eof⟩ := by
  rw [readline] at h
  split at h
  · rename_i r hr
    obtain rfl := Except.ok.inj h
    obtain ⟨hs, i, hi, ha⟩ := readuntil_eq_ok hr
    refine ⟨?_, hs⟩
    rw [firstLine, hi]
    exact ha
  · rename_i part hr
    obtain ⟨rfl, rfl⟩ := Prod.mk.inj (Except.ok.inj h)
    rw [readuntil] at hr
    split at hr
    · split_ifs at hr
      simp at hr
    · rename_i hnone
      have hpart : s.bytes = part := by
        simp only [Stream.short] at hr
        split_ifs at hr
        · simp at hr
        · simpa using hr
        · simp at hr
      rw [firstLine, hnone, hpart]
      exact ⟨rfl, by simp [← hpart]⟩
  · simp at h
  · simp at h

/-- A line is empty at the end of the stream only. -/
lemma firstLine_eq_nil {s : Bytes} (h : firstLine s = []) : s = [] := by
  rw [firstLine] at h
  split at h
  · exact h
  · rename_i i hi
    have := length_le_of_find hi
    rw [List.length_singleton] at this
    rcases List.take_eq_nil_iff.mp h with h | h
    · omega
    · exact h

/-- What `readline` leaves. -/
lemma readline_eq_ok {s u : Stream} (h : (readline limit : Reading ε Bytes) s = .ok (a, u)) :
    s = ⟨a ++ u.bytes, u.eof⟩ ∧ (a = [] → s.bytes = []) := by
  obtain ⟨ha, hs⟩ := readline_eq_firstLine h
  exact ⟨hs, fun hnil => firstLine_eq_nil (ha.symm.trans hnil)⟩

/-- At the end of the stream, a line is empty. -/
lemma readline_eof : (readline limit : Reading ε Bytes) ⟨[], true⟩ = .ok ([], ⟨[], true⟩) := by
  simp [readline, readuntil, find, Stream.short]

end StreamReader
