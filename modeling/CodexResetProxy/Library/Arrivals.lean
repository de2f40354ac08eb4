import CodexResetProxy.Library.StreamReader

/-!
`asyncio.StreamReader`, as a buffer that packets are added to.

* `Arrivals`: the buffer and the packets to come, some of which are there before they
  are waited for.
* `Arrivals.readexactly`, `Arrivals.readuntil`, `Arrivals.readline`: the loops of the
  methods of these names, which wait for one packet after the other.
* `Refines`: a computation on packets and one on the stream they make up;
  `Refines.bind`, and `refines_readuntil` and the like for the three methods: **how the
  bytes are cut into packets does not matter.**
-/

namespace StreamReader

open ByteStr

variable {ε α β : Type}

/-- The buffer, the packets to come, whether EOF follows, and how many packets have
come by the time each read starts. -/
structure Arrivals where
  buffer : Bytes
  packets : List Bytes
  eof : Bool
  early : List ℕ

/-- A computation that reads from arriving packets. -/
abbrev Arriving (ε α : Type) := StateT Arrivals (Except (Stop ε)) α

namespace Arrivals

/-- All that will have arrived. -/
def stream (a : Arrivals) : Stream := ⟨a.buffer ++ a.packets.flatten, a.eof⟩

/-- A read starts. -/
def catchUp (a : Arrivals) : Arrivals where
  buffer := a.buffer ++ (a.packets.take (a.early.headD 0)).flatten
  packets := a.packets.drop (a.early.headD 0)
  eof := a.eof
  early := a.early.tail

/-- The loop of `readexactly`. -/
def awaitBytes (n : ℕ) (buffer : Bytes) : List Bytes → Bytes × List Bytes
  | [] => (buffer, [])
  | packet :: packets =>
      if buffer.length < n then awaitBytes n (buffer ++ packet) packets
      else (buffer, packet :: packets)

/-- `readexactly`. -/
def readexactly (n : ℤ) : Arriving ε Bytes := fun a =>
  if n < 0 then .error .value
  else
    let (buffer, packets) := awaitBytes n.toNat a.catchUp.buffer a.catchUp.packets
    if buffer.length < n then .error (Stream.short ⟨buffer, a.eof⟩)
    else .ok (buffer.take n.toNat, { a.catchUp with buffer := buffer.drop n.toNat, packets })

/-- The loop of `readuntil`, which has looked for the separator up to `offset`; with
what it reads, and what it leaves in the buffer and to come. -/
def awaitSep (limit : ℕ) (sep : Bytes) (eof : Bool) (offset : ℕ) (buffer : Bytes)
    (packets : List Bytes) : Except (Stop ε) (Bytes × Bytes × List Bytes) :=
  match find sep (buffer.drop offset) with
  | some i =>
      if limit < offset + i then .error .limitOverrun
      else .ok (buffer.take (offset + i + sep.length), buffer.drop (offset + i + sep.length),
        packets)
  | none =>
      -- where a separator can start that has not arrived whole
      let offset := buffer.length + 1 - sep.length
      if limit < offset then .error .limitOverrun
      else
        match packets with
        | [] => .error (Stream.short ⟨buffer, eof⟩)
        | packet :: packets => awaitSep limit sep eof offset (buffer ++ packet) packets

/-- `readuntil`. -/
def readuntil (limit : ℕ) (sep : Bytes) : Arriving ε Bytes := fun a =>
  (awaitSep limit sep a.eof 0 a.catchUp.buffer a.catchUp.packets).map
    fun p => (p.1, { a.catchUp with buffer := p.2.1, packets := p.2.2 })

/-- `readline`. -/
def readline (limit : ℕ) : Arriving ε Bytes := fun a =>
  match readuntil limit [0x0a] a with
  | .ok r => .ok r
  | .error (.incomplete part) => .ok (part, { a.catchUp with buffer := [], packets := [] })
  | .error .limitOverrun => .error .value
  | .error e => .error e

end Arrivals

/-! ### Searching -/

variable {sep s t : Bytes} {i limit : ℕ}

/-- Where a separator is found. -/
lemma find_eq_some_iff (hsep : sep ≠ []) :
    find sep s = some i ↔ sep <+: s.drop i ∧ ∀ j < i, ¬sep <+: s.drop j := by
  induction s generalizing i with
  | nil => simp [find, hsep]
  | cons c s ih =>
      rw [find]
      split_ifs with hpre
      · rw [List.isPrefixOf_iff_prefix] at hpre
        constructor
        · rintro h
          obtain rfl := Option.some.inj h
          exact ⟨hpre, by simp⟩
        · rintro ⟨-, hfirst⟩
          rcases Nat.eq_zero_or_pos i with rfl | hpos
          · rfl
          · exact absurd hpre (hfirst 0 hpos)
      · rw [List.isPrefixOf_iff_prefix] at hpre
        rw [Option.map_eq_some_iff]
        constructor
        · rintro ⟨k, hk, rfl⟩
          obtain ⟨hk, hfirst⟩ := ih.mp hk
          refine ⟨hk, fun j hj => ?_⟩
          rcases j with - | j
          · exact hpre
          · exact hfirst j (by omega)
        · rintro ⟨hi, hfirst⟩
          rcases i with - | i
          · exact absurd hi hpre
          · exact ⟨i, ih.mpr ⟨hi, fun j hj => hfirst (j + 1) (by omega)⟩, rfl⟩

lemma find_eq_none_iff (hsep : sep ≠ []) : find sep s = none ↔ ∀ j, ¬sep <+: s.drop j := by
  induction s with
  | nil => simp [find, hsep]
  | cons c s ih =>
      rw [find]
      split_ifs with hpre
      · rw [List.isPrefixOf_iff_prefix] at hpre
        exact iff_of_false (by simp) fun h => h 0 hpre
      · rw [List.isPrefixOf_iff_prefix] at hpre
        rw [Option.map_eq_none_iff, ih]
        constructor
        · intro h j
          rcases j with - | j
          · exact hpre
          · exact h j
        · exact fun h j => h (j + 1)

/-- What starts in a text and ends in it is there whatever follows. -/
lemma prefix_drop_append_iff (h : i + sep.length ≤ s.length) :
    sep <+: (s ++ t).drop i ↔ sep <+: s.drop i := by
  rw [List.drop_append_of_le_length (by omega)]
  constructor
  · exact fun hpre => List.prefix_of_prefix_length_le hpre (List.prefix_append _ t)
      (by rw [List.length_drop]; omega)
  · exact fun hpre => hpre.trans (List.prefix_append _ t)

/-- Where a separator is found in what has arrived is where it is found at all. -/
lemma find_append_of_drop {offset : ℕ} (hsep : sep ≠ [])
    (hbefore : ∀ j < offset, ¬sep <+: (s ++ t).drop j)
    (h : find sep (s.drop offset) = some i) :
    offset + i + sep.length ≤ s.length ∧ find sep (s ++ t) = some (offset + i) := by
  have hlength := length_le_of_find h
  have hpos : 0 < sep.length := List.length_pos_iff.mpr hsep
  rw [List.length_drop] at hlength
  obtain ⟨hi, hfirst⟩ := (find_eq_some_iff hsep).mp h
  rw [List.drop_drop] at hi
  refine ⟨by omega, (find_eq_some_iff hsep).mpr ⟨?_, fun j hj => ?_⟩⟩
  · exact (prefix_drop_append_iff (by omega)).mpr hi
  · rcases Nat.lt_or_ge j offset with hoffset | hoffset
    · exact hbefore j hoffset
    · rw [prefix_drop_append_iff (by omega)]
      have hj' := hfirst (j - offset) (by omega)
      rwa [List.drop_drop, Nat.add_sub_cancel' hoffset] at hj'

/-- Where no separator has arrived, none starts that could have arrived whole. -/
lemma not_prefix_of_find_drop {offset : ℕ} (hsep : sep ≠ [])
    (hbefore : ∀ j < offset, ¬sep <+: (s ++ t).drop j) (h : find sep (s.drop offset) = none) :
    ∀ j < s.length + 1 - sep.length, ¬sep <+: (s ++ t).drop j := by
  intro j hj
  rcases Nat.lt_or_ge j offset with hoffset | hoffset
  · exact hbefore j hoffset
  · have hnone := (find_eq_none_iff hsep).mp h (j - offset)
    rw [List.drop_drop, Nat.add_sub_cancel' hoffset] at hnone
    rwa [prefix_drop_append_iff (by omega)]

/-! ### Refinement -/

/-- On the stream that arrives, one computation does what the other does packet by
packet. -/
def Refines (m : Arriving ε α) (n : Reading ε α) : Prop :=
  ∀ a : Arrivals, (m a).map (fun p => (p.1, p.2.stream)) = n a.stream

namespace Refines

variable {m : Arriving ε α} {n : Reading ε α} {f : α → Arriving ε β} {g : α → Reading ε β}

lemma pure (x : α) : Refines (pure x : Arriving ε α) (pure x) := fun _ => rfl

lemma bind (hm : Refines m n) (hf : ∀ x, Refines (f x) (g x)) : Refines (m >>= f) (n >>= g) := by
  intro a
  have ha := hm a
  cases hread : m a with
  | error why =>
      have hbind : (m >>= f) a = .error why := by
        show (m a >>= fun p => f p.1 p.2) = _
        rw [hread]
        rfl
      rw [hread] at ha
      rw [hbind, bind_of_error ha.symm]
      rfl
  | ok p =>
      obtain ⟨x, a'⟩ := p
      have hbind : (m >>= f) a = f x a' := by
        show (m a >>= fun p => f p.1 p.2) = _
        rw [hread]
        rfl
      rw [hread] at ha
      rw [hbind, bind_of_ok ha.symm]
      exact hf x a'

lemma ite {p : Prop} [Decidable p] {m' : Arriving ε α} {n' : Reading ε α} (hm : Refines m n)
    (hm' : Refines m' n') : Refines (if p then m else m') (if p then n else n') := by
  split_ifs
  · exact hm
  · exact hm'

/-- What is read is what the stream gives. -/
lemma eq_ok {x : α} {a : Arrivals} {t : Stream} (h : Refines m n)
    (hn : n a.stream = .ok (x, t)) : ∃ a', m a = .ok (x, a') ∧ a'.stream = t := by
  have ha := h a
  rw [hn] at ha
  cases hread : m a with
  | error why => rw [hread] at ha; exact absurd ha (by simp [Except.map])
  | ok p =>
      rw [hread] at ha
      obtain ⟨rfl, rfl⟩ := Prod.mk.inj (Except.ok.inj ha)
      exact ⟨p.2, rfl, rfl⟩

end Refines

namespace Arrivals

lemma stream_catchUp (a : Arrivals) : a.catchUp.stream = a.stream := by
  rw [stream, stream, catchUp, List.append_assoc, ← List.flatten_append, List.take_append_drop]

/-- The loop of `readexactly` gets as many bytes as it can. -/
lemma awaitBytes_spec (n : ℕ) (buffer : Bytes) (packets : List Bytes) :
    (awaitBytes n buffer packets).1 ++ (awaitBytes n buffer packets).2.flatten
        = buffer ++ packets.flatten ∧
      ((awaitBytes n buffer packets).1.length < n → (awaitBytes n buffer packets).2 = []) := by
  induction packets generalizing buffer with
  | nil => exact ⟨rfl, fun _ => rfl⟩
  | cons packet packets ih =>
      rw [awaitBytes]
      split_ifs with hshort
      · rw [List.flatten_cons, ← List.append_assoc]
        exact ih (buffer ++ packet)
      · exact ⟨rfl, fun h => absurd h hshort⟩

/-- A separator that is not found within the limit is not read. -/
lemma readuntil_eq_limitOverrun (hsep : sep ≠ []) {k : ℕ} {eof : Bool}
    (hbefore : ∀ j < k, ¬sep <+: s.drop j) (hk : k ≤ s.length + 1 - sep.length)
    (hlimit : limit < k) :
    (StreamReader.readuntil limit sep : Reading ε Bytes) ⟨s, eof⟩ = .error .limitOverrun := by
  rw [StreamReader.readuntil]
  cases hfind : find sep s with
  | none =>
      dsimp only
      rw [if_pos (by omega)]
  | some i =>
      have hi : k ≤ i := by
        by_contra hlt
        exact hbefore i (by omega) ((find_eq_some_iff hsep).mp hfind).1
      dsimp only
      rw [if_pos (by omega)]

variable {offset : ℕ} {buffer : Bytes} {packets : List Bytes} {eof : Bool}

/-- What the loop of `readuntil` leaves, as a stream. -/
def leaves (eof : Bool) (p : Bytes × Bytes × List Bytes) : Bytes × Stream :=
  (p.1, ⟨p.2.1 ++ p.2.2.flatten, eof⟩)

lemma awaitSep_of_some (hsep : sep ≠ [])
    (hbefore : ∀ j < offset, ¬sep <+: (buffer ++ packets.flatten).drop j)
    (hfind : find sep (buffer.drop offset) = some i) :
    (awaitSep limit sep eof offset buffer packets : Except (Stop ε) _).map (leaves eof)
      = StreamReader.readuntil limit sep ⟨buffer ++ packets.flatten, eof⟩ := by
  obtain ⟨hle, hfull⟩ := find_append_of_drop hsep hbefore hfind
  rw [awaitSep.eq_def, hfind, StreamReader.readuntil, hfull]
  dsimp only
  split_ifs with hlimit
  · rfl
  · rw [List.take_append_of_le_length hle, List.drop_append_of_le_length hle]
    rfl

/-- **The loop of `readuntil`** finds what is to be found in the stream. -/
theorem awaitSep_eq (hsep : sep ≠ [])
    (hbefore : ∀ j < offset, ¬sep <+: (buffer ++ packets.flatten).drop j) :
    (awaitSep limit sep eof offset buffer packets : Except (Stop ε) _).map (leaves eof)
      = StreamReader.readuntil limit sep ⟨buffer ++ packets.flatten, eof⟩ := by
  induction packets generalizing offset buffer with
  | nil =>
      cases hfind : find sep (buffer.drop offset) with
      | some i => exact awaitSep_of_some hsep hbefore hfind
      | none =>
          have hnone := not_prefix_of_find_drop hsep hbefore hfind
          rw [awaitSep, hfind]
          dsimp only
          split_ifs with hlimit
          · exact (readuntil_eq_limitOverrun hsep hnone (by simp) hlimit).symm
          -- the offset leaves out no place where the separator could begin
          · have hfull : find sep (buffer ++ [].flatten) = none := by
              refine (find_eq_none_iff hsep).mpr fun j => ?_
              rcases Nat.lt_or_ge j (buffer.length + 1 - sep.length) with hj | hj
              · exact hnone j hj
              · intro hpre
                have hlength := hpre.length_le
                have hpos : 0 < sep.length := List.length_pos_iff.mpr hsep
                simp only [List.flatten_nil, List.append_nil, List.length_drop] at hlength
                omega
            rw [StreamReader.readuntil, hfull]
            dsimp only
            rw [if_neg (by simp; omega), List.flatten_nil, List.append_nil]
            rfl
  | cons packet packets ih =>
      cases hfind : find sep (buffer.drop offset) with
      | some i => exact awaitSep_of_some hsep hbefore hfind
      | none =>
          have hnone := not_prefix_of_find_drop hsep hbefore hfind
          rw [awaitSep, hfind]
          dsimp only
          split_ifs with hlimit
          · exact (readuntil_eq_limitOverrun hsep hnone (by simp; omega) hlimit).symm
          · rw [List.flatten_cons, ← List.append_assoc] at hnone ⊢
            exact ih hnone

end Arrivals

open Arrivals in
theorem refines_readexactly (n : ℤ) :
    Refines (Arrivals.readexactly n : Arriving ε Bytes) (readexactly n) := by
  intro a
  obtain ⟨hall, hshort⟩ := awaitBytes_spec n.toNat a.catchUp.buffer a.catchUp.packets
  have hstream : a.stream = ⟨a.catchUp.buffer ++ a.catchUp.packets.flatten, a.eof⟩ :=
    (stream_catchUp a).symm
  rw [Arrivals.readexactly, readexactly, hstream, ← hall]
  by_cases hneg : n < 0
  · rw [if_pos hneg, if_pos hneg]
    rfl
  rw [if_neg hneg, if_neg hneg]
  generalize awaitBytes n.toNat a.catchUp.buffer a.catchUp.packets = b at hshort ⊢
  obtain ⟨buffer, packets⟩ := b
  dsimp only at hshort ⊢
  by_cases hmissing : buffer.length < n
  · obtain rfl : packets = [] := hshort (by omega)
    rw [if_pos hmissing, List.flatten_nil, List.append_nil, if_pos hmissing]
    rfl
  · have hle : n.toNat ≤ buffer.length := by omega
    rw [if_neg hmissing, if_neg (by rw [List.length_append]; omega),
      List.take_append_of_le_length hle, List.drop_append_of_le_length hle]
    rfl

open Arrivals in
theorem refines_readuntil (limit : ℕ) (hsep : sep ≠ []) :
    Refines (Arrivals.readuntil limit sep : Arriving ε Bytes) (readuntil limit sep) := by
  intro a
  have hloop := @awaitSep_eq ε sep limit 0 a.catchUp.buffer a.catchUp.packets a.eof hsep
    (by simp)
  have hstream : a.stream = ⟨a.catchUp.buffer ++ a.catchUp.packets.flatten, a.eof⟩ :=
    (stream_catchUp a).symm
  rw [hstream, ← hloop, Arrivals.readuntil]
  cases awaitSep limit sep a.eof 0 a.catchUp.buffer a.catchUp.packets with
  | error why => rfl
  | ok p => rfl

open Arrivals in
theorem refines_readline (limit : ℕ) :
    Refines (Arrivals.readline limit : Arriving ε Bytes) (readline limit) := by
  intro a
  have huntil := @refines_readuntil ε [0x0a] limit (List.cons_ne_nil _ _) a
  rw [readline, Arrivals.readline, ← huntil]
  cases Arrivals.readuntil limit [0x0a] a with
  | ok p => rfl
  | error why => cases why <;> rfl

end StreamReader
