import CodexResetProxy.Library.JsonTokens

/-!
Python's decoder reads the texts of the grammar.

* `scanItems`: the loop over the elements of an array or the members of an object.
* `Exceeds`: a text in which the decoder comes to an integer that is too long, or to a
  container that is nested too deep, before anything else is wrong.
* `scanOnce_sound`, `scanOnce_complete`, `limit_scanOnce_iff`: **what is scanned**, and when
  a limit is hit; `loads_complete`, `loads_sound`, `limit_loads_iff`: the same of a whole
  text.
-/

namespace Json

open PyStr Rfc8259

/-- A limit of the decoder is hit. -/
def Limit {α : Type} (x : Except JsonError α) : Prop :=
  x = .error .digits ∨ x = .error .recursion

/-- A limit is hit in the first computation, or in the second. -/
lemma limit_bind {α β : Type} {x : Except JsonError α} {f : α → Except JsonError β} :
    Limit (x >>= f) ↔ Limit x ∨ ∃ a, x = .ok a ∧ Limit (f a) := by
  cases x with
  | error e => simp [Limit, bind, Except.bind]
  | ok a => simp [Limit, bind, Except.bind]

lemma not_limit_ok {α : Type} (a : α) : ¬Limit (.ok a) := by simp [Limit]

lemma not_limit_decode {α : Type} (msg : String) : ¬Limit (.error (.decode msg) : Except _ α) := by
  simp [Limit]

/-! ### Blanks -/

lemma skipSpace_append {w : PyStr} (hw : IsWs w) (s : PyStr) : skipSpace (w ++ s) = skipSpace s :=
  List.dropWhile_append_of_pos hw

lemma skipSpace_cons {c : ℕ} (hc : ¬isSpace c) (s : PyStr) : skipSpace (c :: s) = c :: s :=
  List.dropWhile_cons_of_neg hc

/-- The blanks that are skipped. -/
lemma exists_ws (s : PyStr) : ∃ w, s = w ++ skipSpace s ∧ IsWs w :=
  ⟨s.takeWhile isSpace, List.takeWhile_append_dropWhile.symm, fun _ hc => List.mem_takeWhile_imp hc⟩

lemma endsToken_ws {b : PyStr} (hb : IsWs b) {r : PyStr} (hr : EndsToken r) :
    EndsToken (b ++ r) := by
  cases b with
  | nil => exact hr
  | cons c b =>
      intro d hd
      obtain rfl := Option.some.inj hd
      exact .inl (hb c List.mem_cons_self)

/-! ### The loop over items -/

section Items

variable {α β : Type} {item : PyStr → Except JsonError (α × PyStr)} {g : α → β}
  {Item : PyStr → β → Prop} {close : ℕ} {msg : String} {strict : Prop}

/-- The items of a container up to the closing character, from where the next one begins. -/
def scanItems (item : PyStr → Except JsonError (α × PyStr)) (close : ℕ) (msg : String) :
    ℕ → PyStr → Except JsonError (List α × PyStr)
  | 0, _ => .error (.decode msg)
  | n + 1, s => do
      let (x, s) ← item s
      match skipSpace s with
      | c :: s =>
          if c = close then return ([x], s)
          else if c = 0x2c then
            let (xs, s) ← scanItems item close msg n (skipSpace s)
            return (x :: xs, s)
          else .error (.decode "Expecting ',' delimiter")
      | [] => .error (.decode "Expecting ',' delimiter")

/-- `JSONObject` on a name and its value. -/
def scanMember (scan : PyStr → Except JsonError (Json × PyStr)) :
    PyStr → Except JsonError ((PyStr × Json) × PyStr)
  | c :: s =>
      if c = 0x22 then do
        let (name, s) ← scanString s
        match skipSpace s with
        | c :: s =>
            if c = 0x3a then
              let (v, s) ← scan (skipSpace s)
              return ((name, v), s)
            else .error (.decode "Expecting ':' delimiter")
        | [] => .error (.decode "Expecting ':' delimiter")
      else .error (.decode "Expecting property name enclosed in double quotes")
  | [] => .error (.decode "Expecting property name enclosed in double quotes")

lemma scanElements_eq (scan : PyStr → Except JsonError (Json × PyStr)) (n : ℕ) (s : PyStr) :
    scanElements scan n s = scanItems scan 0x5d "Expecting value" n s := by
  induction n generalizing s with
  | zero => rfl
  | succ n ih =>
      have hmore : scanElements scan n = scanItems scan 0x5d "Expecting value" n := funext ih
      rw [scanElements, scanItems]
      exact hmore ▸ rfl

lemma scanMembers_eq (scan : PyStr → Except JsonError (Json × PyStr)) (n : ℕ) (s : PyStr) :
    scanMembers scan n s = scanItems (scanMember scan) 0x7d
      "Expecting property name enclosed in double quotes" n s := by
  induction n generalizing s with
  | zero => rfl
  | succ n ih =>
      have hmore : scanMembers scan n = scanItems (scanMember scan) 0x7d
        "Expecting property name enclosed in double quotes" n := funext ih
      cases s with
      | nil => rfl
      | cons c s =>
          rw [scanMembers, scanItems, scanMember]
          split_ifs
          · cases scanString s with
            | error e => rfl
            | ok p =>
                simp only [bind, Except.bind]
                cases skipSpace p.2 with
                | nil => rfl
                | cons c s =>
                    dsimp only
                    split_ifs
                    · cases scan (skipSpace s) with
                      | error e => rfl
                      | ok q => exact hmore ▸ rfl
                    · rfl
          · rfl

/-- What is scanned is an item. -/
def Sound (item : PyStr → Except JsonError (α × PyStr)) (g : α → β) (Item : PyStr → β → Prop) :
    Prop :=
  ∀ s x r, item s = .ok (x, r) → Valid s → ∃ t, s = t ++ r ∧ Item t (g x)

/-- An item is scanned, unless a limit is hit, which it is not if the items are `strict`. -/
def Complete (item : PyStr → Except JsonError (α × PyStr)) (g : α → β) (Item : PyStr → β → Prop)
    (strict : Prop) : Prop :=
  ∀ t x r, Item t x → EndsToken r →
    (∃ y, item (t ++ r) = .ok (y, r) ∧ g y = x) ∨ ¬strict ∧ Limit (item (t ++ r))

/-- What an item begins with. -/
def Starts (t : PyStr) : Prop := ∃ c s, t = c :: s ∧ ¬isSpace c ∧ c ≠ 0x5d ∧ c ≠ 0x7d ∧ c < 0x80

lemma Starts.skipSpace {t : PyStr} (h : Starts t) (r : PyStr) : skipSpace (t ++ r) = t ++ r := by
  obtain ⟨c, s, rfl, hc, -⟩ := h
  exact skipSpace_cons hc (s ++ r)

lemma Starts.length_pos {t : PyStr} (h : Starts t) : 0 < t.length := by
  obtain ⟨c, s, rfl, -⟩ := h
  exact Nat.succ_pos _

lemma scanItems_sound (hitem : Sound item g Item) {n : ℕ} {s r : PyStr} {xs : List α}
    (h : scanItems item close msg n s = .ok (xs, r)) (hs : Valid s) :
    ∃ u, s = u ++ close :: r ∧ Separated Item u (xs.map g) := by
  induction n generalizing s r xs with
  | zero => simp [scanItems] at h
  | succ n ih =>
      rw [scanItems] at h
      obtain ⟨⟨x, s'⟩, hx, hrest⟩ := bind_eq_ok.mp h
      obtain ⟨t, rfl, ht⟩ := hitem _ _ _ hx hs
      obtain ⟨w, hw, hws⟩ := exists_ws s'
      dsimp only at hrest
      split at hrest
      · rename_i c s'' hs''
        rw [hs''] at hw
        split_ifs at hrest with hclose hcomma
        · obtain ⟨rfl, rfl⟩ : [x] = xs ∧ s'' = r := by simpa using hrest
          refine ⟨t ++ w, by rw [hw, hclose]; simp, ?_⟩
          exact .single (a := []) (by simp [IsWs]) ht hws
        · obtain ⟨⟨ys, s₂⟩, hys, hrest⟩ := bind_eq_ok.mp hrest
          obtain ⟨rfl, rfl⟩ : x :: ys = xs ∧ s₂ = r := by simpa using hrest
          obtain ⟨w', hw', hws'⟩ := exists_ws s''
          have hvalid : Valid (skipSpace s'') := by
            intro d hd
            refine hs d ?_
            rw [hw, hw']
            simp [hd]
          obtain ⟨u, hu, hsep⟩ := ih hys hvalid
          refine ⟨t ++ (w ++ 0x2c :: (w' ++ u)), ?_, ?_⟩
          · rw [hw, hw', hu, hcomma]
            simp
          · exact .cons (a := []) (by simp [IsWs]) ht hws (hsep.ws_append hws')
      · simp at hrest

lemma scanItems_complete (hitem : Complete item g Item strict)
    (hstarts : ∀ t x, Item t x → Starts t)
    (hclose : close = 0x5d ∨ close = 0x7d) {u r : PyStr} {xs : List β} (h : Separated Item u xs)
    {n : ℕ} (hn : (skipSpace (u ++ close :: r)).length < n) :
    (∃ ys, scanItems item close msg n (skipSpace (u ++ close :: r)) = .ok (ys, r) ∧
        ys.map g = xs) ∨
      ¬strict ∧ Limit (scanItems item close msg n (skipSpace (u ++ close :: r))) := by
  have hspace : ¬isSpace close := by rcases hclose with rfl | rfl <;> decide
  obtain ⟨n, rfl⟩ : ∃ k, n = k + 1 := ⟨n - 1, by omega⟩
  induction h generalizing n with
  | @single a t b x ha hx hb =>
      have hends : EndsToken (b ++ close :: r) := endsToken_ws hb fun c hc => by
        obtain rfl := Option.some.inj hc
        omega
      rw [List.append_assoc, List.append_assoc, skipSpace_append ha, (hstarts _ _ hx).skipSpace,
        scanItems]
      rcases hitem t x _ hx hends with ⟨y, hy, rfl⟩ | ⟨hstrict, hlimit⟩
      · refine .inl ⟨[y], bind_eq_ok.mpr ⟨_, hy, ?_⟩, rfl⟩
        dsimp only
        rw [skipSpace_append hb, skipSpace_cons hspace]
        dsimp only
        rw [if_pos rfl]
        rfl
      · exact .inr ⟨hstrict, limit_bind.mpr (.inl hlimit)⟩
  | @cons a t b u x xs ha hx hb hu ih =>
      have hends : EndsToken (b ++ 0x2c :: (u ++ close :: r)) := endsToken_ws hb fun c hc => by
        obtain rfl := Option.some.inj hc
        omega
      rw [List.append_assoc, List.append_assoc, List.append_assoc, List.cons_append,
        skipSpace_append ha, (hstarts _ _ hx).skipSpace] at hn ⊢
      -- the items that follow are shorter, so one step of fuel is left for each
      have hle := length_skipSpace_le (u ++ close :: r)
      have hpos := (hstarts _ _ hx).length_pos
      simp only [List.length_append, List.length_cons] at hn hle
      obtain ⟨m, rfl⟩ : ∃ m, n = m + 1 := ⟨n - 1, by omega⟩
      rcases hitem t x _ hx hends with ⟨y, hy, rfl⟩ | ⟨hstrict, hlimit⟩
      · have hstep : scanItems item close msg (m + 1 + 1) (t ++ (b ++ 0x2c :: (u ++ close :: r)))
            = scanItems item close msg (m + 1) (skipSpace (u ++ close :: r)) >>= fun p =>
                return (y :: p.1, p.2) := by
          rw [scanItems, hy]
          simp only [bind, Except.bind]
          rw [skipSpace_append hb, skipSpace_cons (by decide)]
          dsimp only
          rw [if_neg (by omega), if_pos rfl]
        rw [hstep]
        rcases ih m (by omega) with ⟨ys, hys, rfl⟩ | ⟨hstrict, hlimit⟩
        · exact .inl ⟨y :: ys, bind_eq_ok.mpr ⟨_, hys, rfl⟩, rfl⟩
        · exact .inr ⟨hstrict, limit_bind.mpr (.inl hlimit)⟩
      · rw [scanItems]
        exact .inr ⟨hstrict, limit_bind.mpr (.inl hlimit)⟩

/-- Items, each with a comma behind it. -/
inductive Front (Item : PyStr → β → Prop) : PyStr → Prop
  | nil : Front Item []
  | cons {a t b u : PyStr} {x : β} (ha : IsWs a) (h : Item t x) (hb : IsWs b) (hu : Front Item u) :
      Front Item (a ++ (t ++ (b ++ 0x2c :: u)))

/-- What the loop comes to behind some items. -/
def Behind (Item : PyStr → β → Prop) (Stuck : PyStr → Prop) (s : PyStr) : Prop :=
  ∃ f w v, s = f ++ (w ++ v) ∧ Front Item f ∧ IsWs w ∧ Stuck v

variable {Stuck : PyStr → Prop}

/-- Where the loop hits a limit, an item does. -/
lemma behind_of_limit {Item' : PyStr → β → Prop} (hitem : Sound item g Item)
    (hmono : ∀ t x, Item t x → Item' t x) (hstuck : ∀ s, Valid s → Limit (item s) → Stuck s)
    {n : ℕ} {s : PyStr} (hs : Valid s) (h : Limit (scanItems item close msg n (skipSpace s))) :
    Behind Item' Stuck s := by
  induction n generalizing s with
  | zero => exact absurd h (not_limit_decode msg)
  | succ n ih =>
      obtain ⟨w, hw, hws⟩ := exists_ws s
      have hvalid : Valid (skipSpace s) := fun c hc => hs c (by rw [hw]; simp [hc])
      rw [scanItems] at h
      rcases limit_bind.mp h with h | ⟨⟨x, s'⟩, hx, h⟩
      · exact ⟨[], w, skipSpace s, hw, .nil, hws, hstuck _ hvalid h⟩
      obtain ⟨t, ht, hitem'⟩ := hitem _ _ _ hx hvalid
      obtain ⟨b, hb, hbs⟩ := exists_ws s'
      dsimp only at h
      split at h
      · rename_i c s'' hs''
        rw [hs''] at hb
        split_ifs at h with hclose hcomma
        · exact absurd h (not_limit_ok _)
        · rcases limit_bind.mp h with h | ⟨p, -, h⟩
          · have hvalid' : Valid s'' := fun d hd => hvalid d (by rw [ht, hb]; simp [hd])
            obtain ⟨f, w', v, rfl, hf, hw', hv⟩ := ih hvalid' h
            refine ⟨w ++ (t ++ (b ++ 0x2c :: f)), w', v, ?_, .cons hws (hmono _ _ hitem') hbs hf,
              hw', hv⟩
            rw [hw, ht, hb, hcomma]
            simp
          · exact absurd h (not_limit_ok _)
        · exact absurd h (not_limit_decode _)
      · exact absurd h (not_limit_decode _)

/-- Where an item hits a limit, the loop does. -/
lemma limit_of_behind {Item' : PyStr → β → Prop} (hitem : Complete item g Item' strict)
    (hstarts : ∀ t x, Item' t x → Starts t) (hclose : close = 0x5d ∨ close = 0x7d)
    (hstuck : ∀ s, Stuck s → Starts s ∧ Limit (item s)) {n : ℕ} {s : PyStr}
    (h : Behind Item' Stuck s) (hn : (skipSpace s).length < n) :
    Limit (scanItems item close msg n (skipSpace s)) := by
  obtain ⟨f, w, v, rfl, hf, hw, hv⟩ := h
  induction hf generalizing n with
  | nil =>
      obtain ⟨n, rfl⟩ : ∃ k, n = k + 1 := ⟨n - 1, by omega⟩
      obtain ⟨hstart, hlimit⟩ := hstuck v hv
      have hskip := hstart.skipSpace []
      rw [List.append_nil] at hskip
      rw [List.nil_append, skipSpace_append hw, hskip, scanItems]
      exact limit_bind.mpr (.inl hlimit)
  | @cons a t b u x ha hx hb hu ih =>
      obtain ⟨n, rfl⟩ : ∃ k, n = k + 1 := ⟨n - 1, by omega⟩
      have hends : EndsToken (b ++ 0x2c :: (u ++ (w ++ v))) := endsToken_ws hb fun c hc => by
        obtain rfl := Option.some.inj hc
        omega
      rw [List.append_assoc, List.append_assoc, List.append_assoc, List.cons_append,
        skipSpace_append ha, (hstarts _ _ hx).skipSpace] at hn ⊢
      have hle := length_skipSpace_le (u ++ (w ++ v))
      simp only [List.length_append, List.length_cons] at hn hle
      rw [scanItems]
      rcases hitem t x _ hx hends with ⟨y, hy, rfl⟩ | ⟨-, hlimit⟩
      · refine limit_bind.mpr (.inr ⟨_, hy, ?_⟩)
        dsimp only
        rw [skipSpace_append hb, skipSpace_cons (by decide)]
        dsimp only
        rw [if_neg (by omega), if_pos rfl]
        exact limit_bind.mpr (.inl (ih (by omega)))
      · exact limit_bind.mpr (.inl hlimit)

end Items

/-! ### Members -/

section Members

variable {scan : PyStr → Except JsonError (Json × PyStr)} {Val : PyStr → Value → Prop}
  {strict : Prop} {Stuck : PyStr → Prop}

/-- A member, of its decoded value. -/
def memberValue (p : PyStr × Json) : PyStr × Value := (p.1, p.2.value)

/-- What a member comes to behind its name. -/
def BehindName (Stuck : PyStr → Prop) (s : PyStr) : Prop :=
  ∃ n name b c v, s = n ++ (b ++ 0x3a :: (c ++ v)) ∧ IsString n name ∧ IsWs b ∧ IsWs c ∧ Stuck v

lemma starts_of_isString {n name : PyStr} (h : IsString n name) (r : PyStr) : Starts (n ++ r) := by
  obtain ⟨u, rfl, -⟩ := h
  exact ⟨0x22, u ++ [0x22] ++ r, rfl, by decide, by decide, by decide, by decide⟩

lemma scanMember_sound (hscan : Sound scan value Val) :
    Sound (scanMember scan) memberValue (IsMember Val) := by
  intro s x r h hs
  cases s with
  | nil => simp [scanMember] at h
  | cons c s =>
      rw [scanMember] at h
      split_ifs at h with hquote
      subst hquote
      obtain ⟨⟨name, s₁⟩, hname, hrest⟩ := bind_eq_ok.mp h
      obtain ⟨n, hn, hstring⟩ := scanString_sound hname (List.forall_mem_cons.mp hs).2
      obtain ⟨b, hb, hbs⟩ := exists_ws s₁
      dsimp only at hrest
      split at hrest
      · rename_i d s₂ hs₂
        split_ifs at hrest with hcolon
        obtain ⟨⟨v, s₃⟩, hv, hlast⟩ := bind_eq_ok.mp hrest
        obtain ⟨rfl, rfl⟩ : (name, v) = x ∧ s₃ = r := by simpa using hlast
        obtain ⟨w, hw, hws⟩ := exists_ws s₂
        rw [hs₂, hcolon] at hb
        have hvalid : Valid (skipSpace s₂) := by
          intro e he
          refine hs e ?_
          rw [hn, hb, hw]
          simp [he]
        obtain ⟨u, hu, hval⟩ := hscan _ _ _ hv hvalid
        refine ⟨n ++ (b ++ 0x3a :: (w ++ u)), ?_, n, b, w, u, rfl, hstring, hbs, hws, hval⟩
        rw [hn, hb, hw, hu]
        simp
      · simp at hrest

/-- What is scanned of a member up to its value. -/
lemma scanMember_of_isString {n name b c : PyStr} (hn : IsString n name) (hb : IsWs b)
    (hc : IsWs c) {s : PyStr} (hs : Starts s) : scanMember scan (n ++ (b ++ 0x3a :: (c ++ s)))
      = scan s >>= fun p => return ((name, p.1), p.2) := by
  obtain ⟨t, ht, hscan⟩ := scanString_complete hn (b ++ 0x3a :: (c ++ s))
  have hskip := hs.skipSpace []
  rw [List.append_nil] at hskip
  rw [ht, scanMember, if_pos rfl, hscan]
  simp only [bind, Except.bind]
  rw [skipSpace_append hb, skipSpace_cons (by decide)]
  dsimp only
  rw [if_pos rfl, skipSpace_append hc, hskip]

lemma scanMember_complete (hscan : Complete scan value Val strict)
    (hstarts : ∀ t v, Val t v → Starts t) :
    Complete (scanMember scan) memberValue (IsMember Val) strict := by
  rintro t ⟨name, v⟩ r ⟨n, b, c, u, rfl, hn, hb, hc, hu⟩ hr
  have hstart : Starts (u ++ r) := by
    obtain ⟨d, s, rfl, hd⟩ := hstarts _ _ hu
    exact ⟨d, s ++ r, rfl, hd⟩
  have heq : n ++ (b ++ 0x3a :: (c ++ u)) ++ r = n ++ (b ++ 0x3a :: (c ++ (u ++ r))) := by simp
  rw [heq, scanMember_of_isString hn hb hc hstart]
  rcases hscan u v r hu hr with ⟨j, hj, rfl⟩ | ⟨hstrict, hlimit⟩
  · exact .inl ⟨(name, j), bind_eq_ok.mpr ⟨_, hj, rfl⟩, rfl⟩
  · exact .inr ⟨hstrict, limit_bind.mpr (.inl hlimit)⟩

/-- No limit is hit in a string. -/
lemma not_limit_scanString (s : PyStr) : ¬Limit (scanString s) := by
  have hescape : ∀ s, ¬Limit (scanEscape s) := by
    intro s
    unfold scanEscape scanUnicodeEscape
    split
    · exact not_limit_decode _
    · repeat' split
      all_goals first | exact not_limit_decode _ | exact not_limit_ok _
  have hfrom : ∀ n s, ¬Limit (scanStringFrom n s) := by
    intro n
    induction n with
    | zero => exact fun s => not_limit_decode _
    | succ n ih =>
        intro s h
        cases s with
        | nil => exact not_limit_decode _ h
        | cons c s =>
            rw [scanStringFrom] at h
            split_ifs at h
            · exact not_limit_ok _ h
            · rcases limit_bind.mp h with h | ⟨p, -, h⟩
              · exact hescape _ h
              · rcases limit_bind.mp h with h | ⟨q, -, h⟩
                · exact ih _ h
                · exact not_limit_ok _ h
            · exact not_limit_decode _ h
            · rcases limit_bind.mp h with h | ⟨q, -, h⟩
              · exact ih _ h
              · exact not_limit_ok _ h
  exact hfrom _ _

lemma behindName_of_limit (hstuck : ∀ s, Valid s → Limit (scan s) → Stuck s) (s : PyStr)
    (hs : Valid s) (h : Limit (scanMember scan s)) : BehindName Stuck s := by
  cases s with
  | nil => exact absurd h (not_limit_decode _)
  | cons c s =>
      rw [scanMember] at h
      split_ifs at h with hquote
      · subst hquote
        rcases limit_bind.mp h with h | ⟨⟨name, s₁⟩, hname, h⟩
        · exact absurd h (not_limit_scanString s)
        obtain ⟨n, hn, hstring⟩ := scanString_sound hname (List.forall_mem_cons.mp hs).2
        obtain ⟨b, hb, hbs⟩ := exists_ws s₁
        dsimp only at h
        split at h
        · rename_i d s₂ hs₂
          split_ifs at h with hcolon
          · obtain ⟨w, hw, hws⟩ := exists_ws s₂
            rw [hs₂, hcolon] at hb
            have hvalid : Valid (skipSpace s₂) := by
              intro e he
              refine hs e ?_
              rw [hn, hb, hw]
              simp [he]
            rcases limit_bind.mp h with h | ⟨p, -, h⟩
            · refine ⟨n, name, b, w, skipSpace s₂, ?_, hstring, hbs, hws, hstuck _ hvalid h⟩
              rw [hn, hb, ← hw]
            · exact absurd h (not_limit_ok _)
          · exact absurd h (not_limit_decode _)
        · exact absurd h (not_limit_decode _)
      · exact absurd h (not_limit_decode _)

lemma limit_of_behindName (hstuck : ∀ s, Stuck s → Starts s ∧ Limit (scan s)) (s : PyStr)
    (h : BehindName Stuck s) : Starts s ∧ Limit (scanMember scan s) := by
  obtain ⟨n, name, b, c, v, rfl, hn, hb, hc, hv⟩ := h
  obtain ⟨hstart, hlimit⟩ := hstuck v hv
  refine ⟨starts_of_isString hn _, ?_⟩
  rw [scanMember_of_isString hn hb hc hstart]
  exact limit_bind.mpr (.inl hlimit)

end Members

/-! ### Values -/

/-- A number of the decoder that is not too long. -/
def ShortNumber (t : PyStr) (n : Number) : Prop := PyNumber t n ∧ Short n

/-- A value of the decoder, however deep and with integers of any length. -/
def AnyValue (t : PyStr) (v : Value) : Prop := ∃ d, IsValue PyNumber d t v

/-- The decoder comes to an integer that is too long, or to more containers in each other
than it may open, before anything is wrong. -/
def Exceeds : ℕ → PyStr → Prop
  | 0, s => LongInteger s ∨ s.head? = some 0x5b ∨ s.head? = some 0x7b
  | d + 1, s => LongInteger s ∨ (∃ u, s = 0x5b :: u ∧ Behind AnyValue (Exceeds d) u) ∨
      ∃ u, s = 0x7b :: u ∧ Behind (IsMember AnyValue) (BehindName (Exceeds d)) u

/-- What a value begins with. -/
lemma starts_of_isValue {Num : PyStr → Number → Prop} (hnum : ∀ t n, Num t n → PyNumber t n)
    {d : ℕ} {t : PyStr} {v : Value} (h : IsValue Num d t v) : Starts t := by
  have hint : ∀ {i r : PyStr}, IsInt i → Starts (i ++ r) := by
    intro i r hi
    obtain ⟨c, s, hc, rfl | rfl⟩ := IsInt.head hi
    · have hdigit := isDigit_bounds hc
      refine ⟨c, s ++ r, rfl, ?_, by omega, by omega, by omega⟩
      simp only [isSpace, decide_eq_true_eq]
      omega
    · exact ⟨0x2d, c :: s ++ r, rfl, by decide, by decide, by decide, by decide⟩
  have hliteral : ∀ {s : String}, s ∈ ["null", "true", "false", "NaN", "Infinity", "-Infinity"] →
      Starts (py s) := by
    intro s hs
    simp only [List.mem_cons, List.not_mem_nil, or_false] at hs
    rcases hs with rfl | rfl | rfl | rfl | rfl | rfl <;>
      exact ⟨_, _, rfl, by decide, by decide, by decide, by decide⟩
  cases v with
  | null =>
      rw [isValue_null.mp h]
      exact hliteral (by simp)
  | bool b =>
      rw [isValue_bool.mp h]
      cases b <;> exact hliteral (by simp)
  | number n =>
      cases hnum _ _ (isValue_number.mp h) with
      | number hn =>
          cases hn with
          | int hi =>
              rw [← List.append_nil t]
              exact hint hi
          | decimal hi => exact hint hi
      | special hs =>
          simp only [specials, List.mem_cons, List.not_mem_nil, or_false] at hs
          rcases hs with rfl | rfl | rfl <;> exact hliteral (by simp)
  | string s =>
      rw [← List.append_nil t]
      exact starts_of_isString (isValue_string.mp h) []
  | array elements =>
      -- a bracket, which only a value of some depth has
      cases d with
      | zero => exact absurd h id
      | succ d =>
          obtain ⟨u, rfl, -⟩ := h
          exact ⟨_, _, rfl, by decide, by decide, by decide, by decide⟩
  | object members =>
      cases d with
      | zero => exact absurd h id
      | succ d =>
          obtain ⟨u, ms, rfl, -⟩ := h
          exact ⟨_, _, rfl, by decide, by decide, by decide, by decide⟩

/-! ### Containers -/

section Containers

variable {scan : PyStr → Except JsonError (Json × PyStr)} {Val Val' : PyStr → Value → Prop}
  {strict : Prop} {Stuck : PyStr → Prop} {s r u : PyStr} {j : Json}

lemma starts_of_isMember {t : PyStr} {p : PyStr × Value} (h : IsMember Val t p) : Starts t := by
  obtain ⟨n, b, c, u, rfl, hn, -⟩ := h
  exact starts_of_isString hn _

/-- Items begin like one of them. -/
lemma starts_of_separated {β : Type} {Item : PyStr → β → Prop} {xs : List β}
    (hstarts : ∀ t x, Item t x → Starts t) (h : Separated Item u xs) (r : PyStr) :
    Starts (skipSpace (u ++ r)) := by
  have hitem : ∀ {a t r : PyStr} {x : β}, IsWs a → Item t x →
      Starts (skipSpace (a ++ (t ++ r))) := by
    intro a t r x ha hx
    rw [skipSpace_append ha, (hstarts _ _ hx).skipSpace]
    obtain ⟨c, s, rfl, hc⟩ := hstarts _ _ hx
    exact ⟨c, s ++ r, rfl, hc⟩
  cases h with
  | single ha hx hb =>
      rw [List.append_assoc, List.append_assoc]
      exact hitem ha hx
  | cons ha hx hb hu =>
      rw [List.append_assoc, List.append_assoc]
      exact hitem ha hx

lemma Starts.head_ne {c : ℕ} (h : Starts s) (hc : c = 0x5d ∨ c = 0x7d) : s.head? ≠ some c := by
  obtain ⟨d, t, rfl, -, hne, hne', -⟩ := h
  rintro heq
  obtain rfl := Option.some.inj heq
  omega

lemma scanArray_sound (hscan : Sound scan value Val) (h : scanArray scan s = .ok (j, r))
    (hs : Valid s) : ∃ u vs, s = u ++ 0x5d :: r ∧ Items Val u vs ∧ j.value = .array vs := by
  obtain ⟨w, hw, hws⟩ := exists_ws s
  rw [scanArray] at h
  split_ifs at h with hempty
  · obtain ⟨rfl, rfl⟩ := Prod.mk.inj (Except.ok.inj h)
    obtain ⟨t, ht⟩ := List.head?_eq_some_iff.mp hempty
    refine ⟨w, [], ?_, .inl ⟨hws, rfl⟩, by rw [value, valueWith]; rfl⟩
    conv_lhs => rw [hw, ht]
    rw [ht]
    rfl
  · rw [scanElements_eq] at h
    obtain ⟨⟨vs, r'⟩, hvs, h⟩ := bind_eq_ok.mp h
    obtain ⟨rfl, rfl⟩ : Json.arr vs = j ∧ r' = r := by simpa using h
    have hvalid : Valid (skipSpace s) := fun c hc => hs c (by rw [hw]; simp [hc])
    obtain ⟨u, hu, hsep⟩ := scanItems_sound hscan hvs hvalid
    refine ⟨w ++ u, vs.map value, by rw [hw, hu]; simp, .inr (hsep.ws_append hws), ?_⟩
    rw [value, valueWith]

lemma scanObject_sound (hscan : Sound scan value Val) (h : scanObject scan s = .ok (j, r))
    (hs : Valid s) : ∃ u ms, s = u ++ 0x7d :: r ∧ Items (IsMember Val) u ms ∧
      j.value = .object (lastValues ms) := by
  obtain ⟨w, hw, hws⟩ := exists_ws s
  rw [scanObject] at h
  split_ifs at h with hempty
  · obtain ⟨rfl, rfl⟩ := Prod.mk.inj (Except.ok.inj h)
    obtain ⟨t, ht⟩ := List.head?_eq_some_iff.mp hempty
    refine ⟨w, [], ?_, .inl ⟨hws, rfl⟩, by rw [value, valueWith]; rfl⟩
    conv_lhs => rw [hw, ht]
    rw [ht]
    rfl
  · rw [scanMembers_eq] at h
    obtain ⟨⟨ms, r'⟩, hms, h⟩ := bind_eq_ok.mp h
    obtain ⟨rfl, rfl⟩ : Json.obj (dictOfPairs ms) = j ∧ r' = r := by simpa using h
    have hvalid : Valid (skipSpace s) := fun c hc => hs c (by rw [hw]; simp [hc])
    obtain ⟨u, hu, hsep⟩ := scanItems_sound (scanMember_sound hscan) hms hvalid
    refine ⟨w ++ u, ms.map memberValue, by rw [hw, hu]; simp, .inr (hsep.ws_append hws), ?_⟩
    rw [value, valueWith]
    exact congrArg Value.object (lastValues_map value ms)

lemma scanArray_complete (hscan : Complete scan value Val strict)
    (hstarts : ∀ t v, Val t v → Starts t) {vs : List Value} (h : Items Val u vs) (r : PyStr) :
    (∃ j, scanArray scan (u ++ 0x5d :: r) = .ok (j, r) ∧ j.value = .array vs) ∨
      ¬strict ∧ Limit (scanArray scan (u ++ 0x5d :: r)) := by
  rcases h with ⟨hws, rfl⟩ | h
  · refine .inl ⟨.arr [], ?_, by rw [value, valueWith]; rfl⟩
    rw [scanArray, skipSpace_append hws, skipSpace_cons (by decide)]
    rfl
  · have hhead := (starts_of_separated hstarts h (0x5d :: r)).head_ne (.inl rfl)
    rw [scanArray, if_neg hhead, scanElements_eq]
    rcases scanItems_complete hscan hstarts (.inl rfl) h (Nat.lt_succ_self _) with
      ⟨ys, hys, rfl⟩ | ⟨hstrict, hlimit⟩
    · exact .inl ⟨.arr ys, bind_eq_ok.mpr ⟨_, hys, rfl⟩, by rw [value, valueWith]⟩
    · exact .inr ⟨hstrict, limit_bind.mpr (.inl hlimit)⟩

lemma scanObject_complete (hscan : Complete scan value Val strict)
    (hstarts : ∀ t v, Val t v → Starts t) {ms : List (PyStr × Value)}
    (h : Items (IsMember Val) u ms)
    (r : PyStr) :
    (∃ j, scanObject scan (u ++ 0x7d :: r) = .ok (j, r) ∧ j.value = .object (lastValues ms)) ∨
      ¬strict ∧ Limit (scanObject scan (u ++ 0x7d :: r)) := by
  rcases h with ⟨hws, rfl⟩ | h
  · refine .inl ⟨.obj [], ?_, by rw [value, valueWith]; rfl⟩
    rw [scanObject, skipSpace_append hws, skipSpace_cons (by decide)]
    rfl
  · have hfront := starts_of_separated (fun _ _ => starts_of_isMember) h (0x7d :: r)
    have hhead := hfront.head_ne (.inr rfl)
    rw [scanObject, if_neg hhead, scanMembers_eq]
    rcases scanItems_complete (scanMember_complete hscan hstarts) (fun _ _ => starts_of_isMember)
        (.inr rfl) h (Nat.lt_succ_self _) with ⟨ys, hys, rfl⟩ | ⟨hstrict, hlimit⟩
    · refine .inl ⟨.obj (dictOfPairs ys), bind_eq_ok.mpr ⟨_, hys, rfl⟩, ?_⟩
      rw [value, valueWith]
      exact congrArg Value.object (lastValues_map value ys)
    · exact .inr ⟨hstrict, limit_bind.mpr (.inl hlimit)⟩

/-- What the loop comes to begins like an item. -/
lemma starts_of_behind {β : Type} {Item : PyStr → β → Prop} (hstarts : ∀ t x, Item t x → Starts t)
    (hstuck : ∀ s, Stuck s → Starts s) (h : Behind Item Stuck s) : Starts (skipSpace s) := by
  obtain ⟨f, w, v, rfl, hf, hw, hv⟩ := h
  cases hf with
  | nil =>
      have hskip := (hstuck v hv).skipSpace []
      rw [List.append_nil] at hskip
      rw [List.nil_append, skipSpace_append hw, hskip]
      exact hstuck v hv
  | cons ha hx hb hu =>
      rw [List.append_assoc, List.append_assoc, skipSpace_append ha, (hstarts _ _ hx).skipSpace]
      obtain ⟨c, s, rfl, hc⟩ := hstarts _ _ hx
      exact ⟨c, _, rfl, hc⟩

lemma behind_of_scanArray (hsound : Sound scan value Val) (hmono : ∀ t v, Val t v → Val' t v)
    (hlimit : ∀ s, Valid s → Limit (scan s) → Stuck s) (hs : Valid s)
    (h : Limit (scanArray scan s)) : Behind Val' Stuck s := by
  rw [scanArray] at h
  split_ifs at h with hempty
  · exact absurd h (not_limit_ok _)
  · rw [scanElements_eq] at h
    rcases limit_bind.mp h with h | ⟨p, -, h⟩
    · exact behind_of_limit hsound hmono hlimit hs h
    · exact absurd h (not_limit_ok _)

lemma behind_of_scanObject (hsound : Sound scan value Val) (hmono : ∀ t v, Val t v → Val' t v)
    (hlimit : ∀ s, Valid s → Limit (scan s) → Stuck s) (hs : Valid s)
    (h : Limit (scanObject scan s)) : Behind (IsMember Val') (BehindName Stuck) s := by
  rw [scanObject] at h
  split_ifs at h with hempty
  · exact absurd h (not_limit_ok _)
  · rw [scanMembers_eq] at h
    rcases limit_bind.mp h with h | ⟨p, -, h⟩
    · exact behind_of_limit (scanMember_sound hsound) (fun _ _ => IsMember.mono hmono)
        (behindName_of_limit hlimit) hs h
    · exact absurd h (not_limit_ok _)

lemma limit_scanArray (hcomplete : Complete scan value Val strict)
    (hstarts : ∀ t v, Val t v → Starts t) (hstuck : ∀ s, Stuck s → Starts s ∧ Limit (scan s))
    (h : Behind Val Stuck s) : Limit (scanArray scan s) := by
  have hhead := (starts_of_behind hstarts (fun s hs => (hstuck s hs).1) h).head_ne (.inl rfl)
  rw [scanArray, if_neg hhead, scanElements_eq]
  exact limit_bind.mpr (.inl (limit_of_behind hcomplete hstarts (.inl rfl) hstuck h
    (Nat.lt_succ_self _)))

lemma limit_scanObject (hcomplete : Complete scan value Val strict)
    (hstarts : ∀ t v, Val t v → Starts t) (hstuck : ∀ s, Stuck s → Starts s ∧ Limit (scan s))
    (h : Behind (IsMember Val) (BehindName Stuck) s) : Limit (scanObject scan s) := by
  have hname := limit_of_behindName hstuck
  have hhead := (starts_of_behind (fun _ _ => starts_of_isMember) (fun s hs => (hname s hs).1)
    h).head_ne (.inr rfl)
  rw [scanObject, if_neg hhead, scanMembers_eq]
  exact limit_bind.mpr (.inl (limit_of_behind (scanMember_complete hcomplete hstarts)
    (fun _ _ => starts_of_isMember) (.inr rfl) hname h (Nat.lt_succ_self _)))

end Containers

/-! ### Any value -/

/-- One call is sound if the calls for the values inside are. -/
lemma scanOnce_sound_of {d : ℕ} (ih : ∀ e, d = e + 1 →
    Sound (scanOnce e) value (IsValue ShortNumber e)) :
    Sound (scanOnce d) value (IsValue ShortNumber d) := by
  intro s j r h hs
  cases s with
  | nil => cases d <;> simp [scanOnce] at h
  | cons c s =>
      have hs' : Valid s := (List.forall_mem_cons.mp hs).2
      rw [scanOnce_cons] at h
      split_ifs at h with hquote hobject harray
      · subst hquote
        obtain ⟨⟨x, r'⟩, hx, h⟩ := bind_eq_ok.mp h
        obtain ⟨rfl, rfl⟩ : Json.str x = j ∧ r' = r := by simpa using h
        obtain ⟨t, ht, hstring⟩ := scanString_sound hx hs'
        refine ⟨t, ht, ?_⟩
        rw [value, valueWith, isValue_string]
        exact hstring
      · subst hobject
        cases d with
        | zero => simp at h
        | succ d =>
            obtain ⟨u, ms, rfl, hu, hj⟩ := scanObject_sound (ih d rfl) h hs'
            refine ⟨0x7b :: (u ++ [0x7d]), by simp, ?_⟩
            rw [hj]
            exact ⟨u, ms, rfl, hu, rfl⟩
      · subst harray
        cases d with
        | zero => simp at h
        | succ d =>
            obtain ⟨u, vs, rfl, hu, hj⟩ := scanArray_sound (ih d rfl) h hs'
            refine ⟨0x5b :: (u ++ [0x5d]), by simp, ?_⟩
            rw [hj]
            exact ⟨u, rfl, hu⟩
      -- a literal, the special numbers among them
      · split at h
        · rename_i p hp
          obtain rfl := Except.ok.inj h
          obtain ⟨q, hq, heq, rfl⟩ := scanLiteral_sound hp
          refine ⟨q.1, heq, ?_⟩
          simp only [literals, List.mem_cons, List.not_mem_nil, or_false] at hq
          rcases hq with rfl | rfl | rfl | rfl | rfl | rfl
          · rw [value, valueWith, isValue_null]
          · rw [value, valueWith, isValue_bool]
            rfl
          · rw [value, valueWith, isValue_bool]
            rfl
          all_goals
            rw [value, valueWith, isValue_number]
            exact ⟨.special (by simp [specials]), trivial⟩
        · cases hn : scanNumber (c :: s) with
          | none => simp [hn] at h
          | some x =>
              obtain rfl : x = .ok (j, r) := by simpa [hn] using h
              obtain ⟨t, n, ht, hnumber, hshort, hvalue⟩ := scanNumber_sound hn
              refine ⟨t, ht, ?_⟩
              rw [hvalue, isValue_number]
              exact ⟨.number hnumber, hshort⟩

/-- **A value that is scanned** is one: its integers are short, and it is nested no deeper
than the decoder may open containers. -/
theorem scanOnce_sound (d : ℕ) : Sound (scanOnce d) value (IsValue ShortNumber d) := by
  induction d with
  | zero => exact scanOnce_sound_of fun e he => absurd he (Nat.succ_ne_zero e).symm
  | succ d ih =>
      refine scanOnce_sound_of fun e he => ?_
      obtain rfl := Nat.succ.inj he
      exact ih

/-- A literal is scanned in front of any text. -/
lemma scanOnce_literal {p : PyStr × Json} (hp : p ∈ literals) (d : ℕ) (r : PyStr) :
    scanOnce d (p.1 ++ r) = .ok (p.2, r) := by
  have hscan := scanLiteral_complete hp r
  obtain ⟨c, s, hs, hc⟩ : ∃ c s, p.1 = c :: s ∧ c ≠ 0x22 ∧ c ≠ 0x7b ∧ c ≠ 0x5b := by
    simp only [literals, List.mem_cons, List.not_mem_nil, or_false] at hp
    rcases hp with rfl | rfl | rfl | rfl | rfl | rfl <;>
      exact ⟨_, _, rfl, by decide, by decide, by decide⟩
  rw [hs, List.cons_append] at hscan ⊢
  rw [scanOnce_cons, if_neg hc.1, if_neg hc.2.1, if_neg hc.2.2, hscan]

/-- A text that begins with an integer is scanned as a number. -/
lemma scanOnce_of_isInt {i : PyStr} (hi : IsInt i) (d : ℕ) (r : PyStr) : scanOnce d (i ++ r)
    = (scanNumber (i ++ r)).getD (.error (.decode "Expecting value")) := by
  have hscan := scanLiteral_of_isInt hi r
  obtain ⟨c, s, hc, hhead⟩ := IsInt.head hi
  have hdigit := isDigit_bounds hc
  rcases hhead with rfl | rfl
  · rw [List.cons_append] at hscan ⊢
    rw [scanOnce_cons, if_neg (by omega), if_neg (by omega), if_neg (by omega), hscan]
  · rw [List.cons_append] at hscan ⊢
    rw [scanOnce_cons, if_neg (by decide), if_neg (by decide), if_neg (by decide), hscan]

/-- A number is scanned, in front of what may follow one, unless it has too many digits. -/
lemma scanOnce_number {t r : PyStr} {n : Number} (h : PyNumber t n) (d : ℕ) (hr : EndsToken r) :
    (∃ j, scanOnce d (t ++ r) = .ok (j, r) ∧ value j = .number n) ∨
      ¬Short n ∧ scanOnce d (t ++ r) = .error .digits := by
  cases h with
  | number hnumber =>
      obtain ⟨i, w, hi, rfl⟩ : ∃ i w, IsInt i ∧ t = i ++ w := by
        cases hnumber with
        | int hi => exact ⟨t, [], hi, (List.append_nil t).symm⟩
        | @decimal i f e hi => exact ⟨i, f ++ e, hi, rfl⟩
      have hscan := scanOnce_of_isInt hi d (w ++ r)
      rw [← List.append_assoc] at hscan
      rw [hscan]
      rcases scanNumber_complete hnumber hr with ⟨j, hj, hvalue⟩ | ⟨hdigits, hshort⟩
      · exact .inl ⟨j, by rw [hj]; rfl, hvalue⟩
      · exact .inr ⟨hshort, by rw [hdigits]; rfl⟩
  | special hspecial =>
      have hmem : (t, Json.float t) ∈ literals := by
        simp only [specials, List.mem_cons, List.not_mem_nil, or_false] at hspecial
        rcases hspecial with rfl | rfl | rfl <;> simp [literals]
      refine .inl ⟨.float t, scanOnce_literal hmem d r, ?_⟩
      rw [value, valueWith]
      simp only [specials, List.mem_cons, List.not_mem_nil, or_false] at hspecial
      rcases hspecial with rfl | rfl | rfl <;> rfl

/-- What is not nested deeper than the decoder may open containers, and has no integer that
is too long. -/
def WithinLimits (Num : PyStr → Number → Prop) (D d : ℕ) : Prop :=
  D ≤ d ∧ ∀ t n, Num t n → Short n

/-- One call is complete if the calls for the values inside are. -/
lemma scanOnce_complete_of {Num : PyStr → Number → Prop} (hnum : ∀ t n, Num t n → PyNumber t n)
    {D d : ℕ} (ih : ∀ E e, D = E + 1 → d = e + 1 →
      Complete (scanOnce e) value (IsValue Num E) (WithinLimits Num E e)) :
    Complete (scanOnce d) value (IsValue Num D) (WithinLimits Num D d) := by
  intro t v r hv hr
  -- a container takes one level of the depth, and with it one of the limit
  have hdeep : ∀ {E : ℕ}, D = E + 1 → d = 0 → ¬WithinLimits Num D d := by
    rintro E rfl rfl ⟨hle, -⟩
    omega
  have hinner : ∀ {E e : ℕ}, D = E + 1 → d = e + 1 → ¬WithinLimits Num E e →
      ¬WithinLimits Num D d := by
    rintro E e rfl rfl hnot ⟨hle, hshort⟩
    exact hnot ⟨by omega, hshort⟩
  cases v with
  | null =>
      rw [isValue_null.mp hv]
      exact .inl ⟨.null, scanOnce_literal (p := (py "null", .null)) (by simp [literals]) d r,
        by rw [value, valueWith]⟩
  | bool b =>
      rw [isValue_bool.mp hv]
      cases b with
      | true =>
          exact .inl ⟨.bool true, scanOnce_literal (p := (py "true", .bool true))
            (by simp [literals]) d r, by rw [value, valueWith]⟩
      | false =>
          exact .inl ⟨.bool false, scanOnce_literal (p := (py "false", .bool false))
            (by simp [literals]) d r, by rw [value, valueWith]⟩
  | number n =>
      -- a number may hit the limit of its digits
      have hn := isValue_number.mp hv
      exact (scanOnce_number (hnum _ _ hn) d hr).imp_right fun h =>
        ⟨fun hlimits => h.1 (hlimits.2 _ _ hn), .inl h.2⟩
  | string s =>
      obtain ⟨u, hu, hscan⟩ := scanString_complete (isValue_string.mp hv) r
      refine .inl ⟨.str s, ?_, by rw [value, valueWith]⟩
      rw [hu, scanOnce_cons, if_pos rfl]
      exact bind_eq_ok.mpr ⟨_, hscan, rfl⟩
  | array vs =>
      cases D with
      | zero => exact absurd hv id
      | succ D =>
          obtain ⟨u, rfl, hu⟩ := hv
          rw [List.cons_append, List.append_assoc, scanOnce_cons, if_neg (by decide),
            if_neg (by decide), if_pos rfl]
          cases d with
          -- no container may be opened any more
          | zero => exact .inr ⟨hdeep rfl rfl, .inr rfl⟩
          | succ d =>
              exact (scanArray_complete (ih D d rfl rfl) (fun _ _ => starts_of_isValue hnum) hu
                r).imp_right fun h => ⟨hinner rfl rfl h.1, h.2⟩
  | object members =>
      cases D with
      | zero => exact absurd hv id
      | succ D =>
          obtain ⟨u, ms, rfl, hu, rfl⟩ := hv
          rw [List.cons_append, List.append_assoc, scanOnce_cons, if_neg (by decide), if_pos rfl]
          cases d with
          | zero => exact .inr ⟨hdeep rfl rfl, .inr rfl⟩
          | succ d =>
              exact (scanObject_complete (ih D d rfl rfl) (fun _ _ => starts_of_isValue hnum) hu
                r).imp_right fun h => ⟨hinner rfl rfl h.1, h.2⟩

/-- **A value is scanned**, in front of what may follow one, unless a limit is hit. -/
theorem scanOnce_complete {Num : PyStr → Number → Prop} (hnum : ∀ t n, Num t n → PyNumber t n)
    (D d : ℕ) : Complete (scanOnce d) value (IsValue Num D) (WithinLimits Num D d) := by
  induction D generalizing d with
  | zero => exact scanOnce_complete_of hnum fun E e hE => absurd hE (Nat.succ_ne_zero E).symm
  | succ D ih =>
      refine scanOnce_complete_of hnum fun E e hE _ => ?_
      obtain rfl := Nat.succ.inj hE
      exact ih e

/-! ### Limits -/

/-- Any value is scanned, or a limit is hit. -/
lemma scanOnce_complete_any (d : ℕ) : Complete (scanOnce d) value AnyValue False := by
  rintro t v r ⟨D, hv⟩ hr
  exact (scanOnce_complete (fun _ _ h => h) D d t v r hv hr).imp_right fun h => ⟨not_false, h.2⟩

lemma starts_of_anyValue {t : PyStr} {v : Value} (h : AnyValue t v) : Starts t := by
  obtain ⟨D, hv⟩ := h
  exact starts_of_isValue (fun _ _ h => h) hv

lemma anyValue_of_short {d : ℕ} {t : PyStr} {v : Value} (h : IsValue ShortNumber d t v) :
    AnyValue t v :=
  ⟨d, h.mono (fun _ _ hn => hn.1) le_rfl⟩

lemma limit_scanNumber {s : PyStr} {msg : String}
    (h : Limit ((scanNumber s).getD (.error (.decode msg)))) : LongInteger s := by
  rw [← scanNumber_eq_digits_iff]
  rw [scanNumber] at h ⊢
  split at h
  · exact absurd h (not_limit_decode _)
  · dsimp only at h ⊢
    split_ifs at h ⊢
    · rfl
    · exact absurd h (not_limit_ok _)
    · exact absurd h (not_limit_ok _)

/-- Where a call hits a limit, the text comes to it, if that is so of the calls for the
values inside. -/
lemma exceeds_of_limit_of {d : ℕ}
    (ih : ∀ e, d = e + 1 → ∀ s, Valid s → Limit (scanOnce e s) → Exceeds e s) (s : PyStr)
    (hs : Valid s) (h : Limit (scanOnce d s)) : Exceeds d s := by
  have hlong : LongInteger s → Exceeds d s := by
    intro hl
    cases d <;> exact .inl hl
  cases s with
  | nil => cases d <;> exact absurd h (not_limit_decode _)
  | cons c s =>
      have hs' : Valid s := (List.forall_mem_cons.mp hs).2
      rw [scanOnce_cons] at h
      split_ifs at h with hquote hobject harray
      -- a string hits no limit
      · rcases limit_bind.mp h with h | ⟨p, -, h⟩
        · exact absurd h (not_limit_scanString s)
        · exact absurd h (not_limit_ok _)
      -- a container hits one itself, or something inside does
      · subst hobject
        cases d with
        | zero => exact .inr (.inr rfl)
        | succ d =>
            exact .inr (.inr ⟨s, rfl, behind_of_scanObject (scanOnce_sound d)
              (fun _ _ => anyValue_of_short) (ih d rfl) hs' h⟩)
      · subst harray
        cases d with
        | zero => exact .inr (.inl rfl)
        | succ d =>
            exact .inr (.inl ⟨s, rfl, behind_of_scanArray (scanOnce_sound d)
              (fun _ _ => anyValue_of_short) (ih d rfl) hs' h⟩)
      · split at h
        · exact absurd h (not_limit_ok _)
        · exact hlong (limit_scanNumber h)

/-- Where the text comes to a limit, a call hits it, if that is so of the calls for the values
inside. -/
lemma limit_of_exceeds_of {d : ℕ}
    (ih : ∀ e, d = e + 1 → ∀ s, Exceeds e s → Starts s ∧ Limit (scanOnce e s)) (s : PyStr)
    (h : Exceeds d s) : Starts s ∧ Limit (scanOnce d s) := by
  have hlong : LongInteger s → Starts s ∧ Limit (scanOnce d s) := by
    intro hl
    have hscan := scanNumber_eq_digits_iff.mpr hl
    obtain ⟨i, r, rfl, hi, -⟩ := hl
    refine ⟨?_, .inl ?_⟩
    · have hstart : Starts i := starts_of_isValue (fun _ _ h => h)
        (isValue_number (d := 0).mpr (PyNumber.number (.int hi)))
      obtain ⟨c, s, rfl, hc⟩ := hstart
      exact ⟨c, s ++ r, rfl, hc⟩
    · rw [scanOnce_of_isInt hi, hscan]
      rfl
  cases d with
  | zero =>
      rcases h with h | h | h
      · exact hlong h
      · obtain ⟨t, rfl⟩ := List.head?_eq_some_iff.mp h
        exact ⟨⟨_, t, rfl, by decide, by decide, by decide, by decide⟩, .inr rfl⟩
      · obtain ⟨t, rfl⟩ := List.head?_eq_some_iff.mp h
        exact ⟨⟨_, t, rfl, by decide, by decide, by decide, by decide⟩, .inr rfl⟩
  | succ d =>
      rcases h with h | ⟨u, rfl, hu⟩ | ⟨u, rfl, hu⟩
      · exact hlong h
      · exact ⟨⟨_, u, rfl, by decide, by decide, by decide, by decide⟩,
          limit_scanArray (scanOnce_complete_any d) (fun _ _ => starts_of_anyValue) (ih d rfl) hu⟩
      · exact ⟨⟨_, u, rfl, by decide, by decide, by decide, by decide⟩,
          limit_scanObject (scanOnce_complete_any d) (fun _ _ => starts_of_anyValue) (ih d rfl) hu⟩

lemma exceeds_of_limit (d : ℕ) : ∀ s, Valid s → Limit (scanOnce d s) → Exceeds d s := by
  induction d with
  | zero => exact exceeds_of_limit_of fun e he => absurd he (Nat.succ_ne_zero e).symm
  | succ d ih =>
      refine exceeds_of_limit_of fun e he => ?_
      obtain rfl := Nat.succ.inj he
      exact ih

lemma limit_of_exceeds (d : ℕ) : ∀ s, Exceeds d s → Starts s ∧ Limit (scanOnce d s) := by
  induction d with
  | zero => exact limit_of_exceeds_of fun e he => absurd he (Nat.succ_ne_zero e).symm
  | succ d ih =>
      refine limit_of_exceeds_of fun e he => ?_
      obtain rfl := Nat.succ.inj he
      exact ih

/-- **A limit is hit** just where the text comes to it. -/
theorem limit_scanOnce_iff {d : ℕ} {s : PyStr} (hs : Valid s) :
    Limit (scanOnce d s) ↔ Exceeds d s := by
  exact ⟨exceeds_of_limit d s hs, fun h => (limit_of_exceeds d s h).2⟩

/-! ### Whole texts -/

variable {d : ℕ} {t : PyStr} {v : Value}

lemma loads_eq (ht : t.head? ≠ some 0xfeff) : loads d t = scanOnce d (skipSpace t) >>= fun p =>
    if skipSpace p.2 = [] then return p.1 else .error (.decode "Extra data") := by
  rw [loads, if_neg ht]

/-- **A text that is read** is one of the grammar, with three more literals. -/
theorem loads_sound {j : Json} (h : loads d t = .ok j) (ht : Valid t) :
    IsText ShortNumber t j.value := by
  rw [loads] at h
  split_ifs at h with hbom
  obtain ⟨⟨j', r⟩, hj, hrest⟩ := bind_eq_ok.mp h
  dsimp only at hrest
  split_ifs at hrest with hspace
  obtain rfl : j' = j := by simpa using hrest
  obtain ⟨w, hw, hws⟩ := exists_ws t
  obtain ⟨b, hb, hbs⟩ := exists_ws r
  obtain ⟨u, hu, hvalue⟩ := scanOnce_sound d _ _ _ hj fun c hc => ht c (by rw [hw]; simp [hc])
  refine ⟨d, w, u, b, ?_, hws, hvalue, hbs⟩
  rw [hspace, List.append_nil] at hb
  rw [hw, hu, hb]

/-- What a text begins with. -/
lemma starts_of_isText {Num : PyStr → Number → Prop} (hnum : ∀ t n, Num t n → PyNumber t n)
    (h : IsText Num t v) : t.head? ≠ some 0xfeff := by
  obtain ⟨D, a, u, b, rfl, ha, hu, -⟩ := h
  intro hbom
  cases a with
  | nil =>
      obtain ⟨c, s, rfl, -, -, -, hc⟩ := starts_of_isValue hnum hu
      obtain rfl := Option.some.inj hbom
      omega
  | cons c a =>
      obtain rfl := Option.some.inj hbom
      exact absurd (ha 0xfeff List.mem_cons_self) (by decide)

lemma loads_of_isValue {Num : PyStr → Number → Prop} (hnum : ∀ t n, Num t n → PyNumber t n) {D : ℕ}
    {a u b : PyStr} (ha : IsWs a) (hu : IsValue Num D u v) (hb : IsWs b) :
    (∃ j, loads d (a ++ (u ++ b)) = .ok j ∧ j.value = v) ∨
      ¬WithinLimits Num D d ∧ Limit (loads d (a ++ (u ++ b))) := by
  have hends : EndsToken b := by
    rw [← List.append_nil b]
    exact endsToken_ws hb (by rintro c ⟨⟩)
  have hspace : skipSpace b = [] := List.dropWhile_eq_nil_iff.mpr hb
  rw [loads_eq (starts_of_isText hnum ⟨D, a, u, b, rfl, ha, hu, hb⟩), skipSpace_append ha,
    (starts_of_isValue hnum hu).skipSpace]
  rcases scanOnce_complete hnum D d u v b hu hends with ⟨j, hj, hvalue⟩ | ⟨hlimits, hlimit⟩
  · exact .inl ⟨j, bind_eq_ok.mpr ⟨_, hj, by dsimp only; rw [if_pos hspace]; rfl⟩, hvalue⟩
  · exact .inr ⟨hlimits, limit_bind.mpr (.inl hlimit)⟩

/-- **A text of the grammar** is read, unless a limit is hit. -/
theorem loads_complete {Num : PyStr → Number → Prop} (hnum : ∀ t n, Num t n → PyNumber t n)
    (h : IsText Num t v) : (∃ j, loads d t = .ok j ∧ j.value = v) ∨ Limit (loads d t) := by
  obtain ⟨D, a, u, b, rfl, ha, hu, hb⟩ := h
  exact (loads_of_isValue hnum ha hu hb).imp_right And.right

/-- A text has one value, if its integers are not too long. -/
theorem isText_unique {v' : Value} (h : IsText PyNumber t v) (h' : IsText ShortNumber t v') :
    v = v' := by
  obtain ⟨D, a, u, b, rfl, ha, hu, hb⟩ := h'
  rcases loads_of_isValue (fun _ _ hn => hn.1) ha hu hb (d := D) with ⟨j, hj, hvalue⟩ | ⟨hlimits, -⟩
  · rcases loads_complete (fun _ _ hn => hn) h (d := D) with ⟨j', hj', hvalue'⟩ | hlimit
    · obtain rfl := Except.ok.inj (hj.symm.trans hj')
      exact hvalue'.symm.trans hvalue
    · rw [hj] at hlimit
      exact absurd hlimit (not_limit_ok _)
  · exact absurd ⟨le_rfl, fun _ _ hn => hn.2⟩ hlimits

/-- **A limit is hit** in a text just where the text comes to it. -/
theorem limit_loads_iff (ht : Valid t) : Limit (loads d t) ↔ Exceeds d (skipSpace t) := by
  have hvalid : Valid (skipSpace t) := by
    obtain ⟨w, hw, -⟩ := exists_ws t
    exact fun c hc => ht c (by rw [hw]; simp [hc])
  by_cases hbom : t.head? = some 0xfeff
  · obtain ⟨s, rfl⟩ := List.head?_eq_some_iff.mp hbom
    refine iff_of_false ?_ fun h => ?_
    · rw [loads, if_pos hbom]
      exact not_limit_decode _
    · rw [skipSpace_cons (by decide)] at h
      obtain ⟨⟨c, s', heq, -, -, -, hc⟩, -⟩ := limit_of_exceeds d _ h
      obtain rfl := (List.cons.inj heq).1
      omega
  · rw [loads_eq hbom, ← limit_scanOnce_iff hvalid, limit_bind]
    refine or_iff_left ?_
    rintro ⟨p, -, h⟩
    split_ifs at h
    · exact not_limit_ok _ h
    · exact not_limit_decode _ h

end Json
