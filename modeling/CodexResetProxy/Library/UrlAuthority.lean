import CodexResetProxy.Library.Url

/-!
Where the authority of a URL ends.

* `Rfc3986.components`: the components of a URL reference, by the regular expression of
  the appendix of RFC 3986.
* `Hierarchical`: a text of scheme, authority and rest; `Hierarchical.components`,
  `urlsplit_iff`: both ways to split agree on it.
* `urlsplit_append`, `urlsplit_urlunsplit`: **neither a path behind it nor another scheme
  moves the authority**.
-/

namespace Url

open PyStr

/-! ### RFC 3986 -/

namespace Rfc3986

/-- The five components. -/
structure Components where
  scheme : Option PyStr
  authority : Option PyStr
  path : PyStr
  query : Option PyStr
  fragment : Option PyStr
  deriving DecidableEq

/-- `(([^:/?#]+):)?`, and what follows it. -/
def scheme (s : PyStr) : Option PyStr × PyStr :=
  let name := s.takeWhile fun c => c ≠ 0x3a ∧ !isNetlocEnd c
  match s.dropWhile fun c => c ≠ 0x3a ∧ !isNetlocEnd c with
  | 0x3a :: rest => if name ≠ [] then (some name, rest) else (none, s)
  | _ => (none, s)

/-- `(//([^/?#]*))?`, and what follows it. -/
def authority : PyStr → Option PyStr × PyStr
  | 0x2f :: 0x2f :: s => (some (s.takeWhile (!isNetlocEnd ·)), s.dropWhile (!isNetlocEnd ·))
  | s => (none, s)

/-- `^(([^:/?#]+):)?(//([^/?#]*))?([^?#]*)(\?([^#]*))?(#(.*))?`. -/
def components (s : PyStr) : Components :=
  let (scheme, s) := scheme s
  let (authority, s) := authority s
  let (s, fragment) := cut 0x23 s
  let (path, query) := cut 0x3f s
  ⟨scheme, authority, path, query, fragment⟩

example : components (py "http://u@h:1/a//b?c:d#e")
    = ⟨some (py "http"), some (py "u@h:1"), py "/a//b", some (py "c:d"), some (py "e")⟩ := by
  decide

end Rfc3986

/-! ### Texts with an authority -/

/-- A text of a scheme, an authority and what follows it. -/
structure Hierarchical (text scheme authority rest : PyStr) : Prop where
  eq : text = scheme ++ 0x3a :: 0x2f :: 0x2f :: (authority ++ rest)
  letter : ∃ c s, scheme = c :: s ∧ isLetter c
  scheme_chars : ∀ c ∈ scheme, isSchemeChar c
  authority_chars : ∀ c ∈ authority, !isNetlocEnd c
  rest_head : ∀ c ∈ rest.head?, isNetlocEnd c

variable {text scheme authority rest url : PyStr}

/-- What the characters of a scheme are not. -/
lemma ne_of_isSchemeChar {c : ℕ} (h : isSchemeChar c) :
    0x20 < c ∧ c ≠ 0x3a ∧ isNetlocEnd c = false := by
  simp only [isSchemeChar, isLetter, Bool.decide_or, Bool.or_eq_true, decide_eq_true_eq,
    Bool.decide_and, Bool.and_eq_true] at h
  refine ⟨by omega, by omega, ?_⟩
  rw [isNetlocEnd, decide_eq_false_iff_not]
  omega

/-- An authority ends where a delimiter comes. -/
lemma takeWhile_authority (hauthority : ∀ c ∈ authority, !isNetlocEnd c)
    (hrest : ∀ c ∈ rest.head?, isNetlocEnd c) :
    (authority ++ rest).takeWhile (!isNetlocEnd ·) = authority ∧
      (authority ++ rest).dropWhile (!isNetlocEnd ·) = rest := by
  rw [List.takeWhile_append_of_pos hauthority, List.dropWhile_append_of_pos hauthority]
  cases rest with
  | nil => exact ⟨List.append_nil _, rfl⟩
  | cons c rest =>
      have hc : isNetlocEnd c := hrest c rfl
      simp [hc]

namespace Hierarchical

variable (h : Hierarchical text scheme authority rest)

include h

lemma splitScheme_eq :
    splitScheme text = (scheme.map lowerAscii, 0x2f :: 0x2f :: (authority ++ rest)) := by
  obtain ⟨c, s, rfl, hletter⟩ := h.letter
  have hcolon : 0x3a ∉ c :: s := fun hmem => (ne_of_isSchemeChar (h.scheme_chars _ hmem)).2.1 rfl
  rw [splitScheme, h.eq, cut_append hcolon]
  dsimp only
  rw [if_pos ⟨hletter, h.scheme_chars⟩]

lemma splitNetloc_eq :
    splitNetloc (0x2f :: 0x2f :: (authority ++ rest)) = (authority, rest) := by
  obtain ⟨htake, hdrop⟩ := takeWhile_authority h.authority_chars h.rest_head
  rw [splitNetloc, htake, hdrop]

/-- The components of a text with an authority. -/
theorem components : (Rfc3986.components text).scheme = some scheme ∧
    (Rfc3986.components text).authority = some authority := by
  have hpass : ∀ c ∈ scheme, (decide (c ≠ 0x3a ∧ !isNetlocEnd c) : Bool) := by
    intro c hc
    obtain ⟨-, hcolon, hend⟩ := ne_of_isSchemeChar (h.scheme_chars c hc)
    simp [hcolon, hend]
  obtain ⟨c, s, hs, -⟩ := h.letter
  have hne : scheme ≠ [] := by simp [hs]
  have hscheme : Rfc3986.scheme text
      = (some scheme, 0x2f :: 0x2f :: (authority ++ rest)) := by
    rw [Rfc3986.scheme, h.eq, List.takeWhile_append_of_pos hpass,
      List.dropWhile_append_of_pos hpass]
    simp [hne]
  obtain ⟨htake, hdrop⟩ := takeWhile_authority h.authority_chars h.rest_head
  have hauthority : Rfc3986.authority (0x2f :: 0x2f :: (authority ++ rest))
      = (some authority, rest) := by
    rw [Rfc3986.authority, htake, hdrop]
  rw [Rfc3986.components, hscheme]
  dsimp only
  rw [hauthority]
  exact ⟨rfl, rfl⟩

end Hierarchical

/-- What a text with a scheme is made of. -/
lemma splitScheme_spec (h : (splitScheme text).1 ≠ []) :
    ∃ scheme, text = scheme ++ 0x3a :: (splitScheme text).2 ∧
      (∃ c s, scheme = c :: s ∧ isLetter c) ∧ (∀ c ∈ scheme, isSchemeChar c) ∧
      (splitScheme text).1 = scheme.map lowerAscii := by
  rw [splitScheme] at h ⊢
  split at h
  · rename_i c s rest hcut
    split_ifs at h ⊢ with hchars
    · exact ⟨c :: s, (eq_of_cut_eq_some hcut).1, ⟨c, s, rfl, hchars.1⟩, hchars.2, rfl⟩
    · exact absurd rfl h
  · exact absurd rfl h

/-- What a text with a network location is made of. -/
lemma splitNetloc_spec (h : (splitNetloc text).1 ≠ []) :
    text = 0x2f :: 0x2f :: ((splitNetloc text).1 ++ (splitNetloc text).2) ∧
      (∀ c ∈ (splitNetloc text).1, !isNetlocEnd c) ∧
      ∀ c ∈ (splitNetloc text).2.head?, isNetlocEnd c := by
  rw [splitNetloc.eq_def] at h ⊢
  split at h
  · rename_i s
    refine ⟨?_, fun c hc => ?_, fun c hc => ?_⟩
    · dsimp only
      rw [List.takeWhile_append_dropWhile]
    · exact @List.mem_takeWhile_imp _ (fun x => !isNetlocEnd x) _ _ hc
    · have hhead := List.head?_dropWhile_not (fun x => !isNetlocEnd x) s
      rw [Option.mem_def.mp hc] at hhead
      simpa using hhead
  · exact absurd rfl h

/-! ### The split of the standard library -/

/-- The checks of a network location. -/
def NetlocOk (bracketedHost nfkcNetloc : PyStr → Bool) (netloc : PyStr) : Prop :=
  ¬((0x5b ∈ netloc ∧ 0x5d ∉ netloc) ∨ (0x5d ∈ netloc ∧ 0x5b ∉ netloc)) ∧
    ¬(0x5b ∈ netloc ∧ !checkBracketedNetloc bracketedHost netloc) ∧
    ¬((∃ c ∈ netloc, 0x80 ≤ c) ∧ !nfkcNetloc netloc)

instance (bracketedHost nfkcNetloc : PyStr → Bool) (netloc : PyStr) :
    Decidable (NetlocOk bracketedHost nfkcNetloc netloc) :=
  inferInstanceAs (Decidable (¬_ ∧ ¬_ ∧ ¬_))

variable {bracketedHost nfkcNetloc : PyStr → Bool} {u : SplitResult} {netloc : PyStr}

/-- **Scheme and network location** of a URL that can be split. -/
theorem urlsplit_iff : (∃ u, urlsplit bracketedHost nfkcNetloc url = some u ∧ u.scheme = scheme ∧
      u.netloc = netloc) ↔
    NetlocOk bracketedHost nfkcNetloc netloc ∧ (splitScheme (clean url)).1 = scheme ∧
      (splitNetloc (splitScheme (clean url)).2).1 = netloc := by
  rw [urlsplit]
  dsimp only
  constructor
  · rintro ⟨u, hu, rfl, rfl⟩
    split_ifs at hu with hbrackets hhost hnfkc
    obtain rfl := Option.some.inj hu
    exact ⟨⟨hbrackets, hhost, hnfkc⟩, rfl, rfl⟩
  · rintro ⟨⟨hbrackets, hhost, hnfkc⟩, rfl, rfl⟩
    rw [if_neg hbrackets, if_neg hhost, if_neg hnfkc]
    exact ⟨_, rfl, rfl, rfl⟩

/-- A text with an authority that passes the checks. -/
lemma Hierarchical.urlsplit (h : Hierarchical (clean url) scheme authority rest)
    (hok : NetlocOk bracketedHost nfkcNetloc authority) :
    ∃ u, Url.urlsplit bracketedHost nfkcNetloc url = some u ∧ u.scheme = scheme.map lowerAscii ∧
      u.netloc = authority := by
  rw [urlsplit_iff, h.splitScheme_eq]
  dsimp only
  rw [h.splitNetloc_eq]
  exact ⟨hok, rfl, rfl⟩

/-- The path behind an authority. -/
lemma Hierarchical.path_urlsplit (h : Hierarchical (clean url) scheme authority rest)
    (hok : NetlocOk bracketedHost nfkcNetloc authority) :
    (Url.urlsplit bracketedHost nfkcNetloc url).map SplitResult.path
      = some (cut 0x3f (cut 0x23 rest).1).1 := by
  rw [Url.urlsplit, h.splitScheme_eq]
  dsimp only
  rw [h.splitNetloc_eq]
  dsimp only
  rw [if_neg hok.1, if_neg hok.2.1, if_neg hok.2.2]
  rfl

/-- What a URL with a scheme and a network location is made of. -/
lemma hierarchical_of_urlsplit (h : urlsplit bracketedHost nfkcNetloc url = some u)
    (hscheme : u.scheme ≠ []) (hnetloc : u.netloc ≠ []) :
    NetlocOk bracketedHost nfkcNetloc u.netloc ∧ ∃ scheme rest,
      Hierarchical (clean url) scheme u.netloc rest ∧ u.scheme = scheme.map lowerAscii := by
  obtain ⟨hok, hs, hn⟩ := urlsplit_iff.mp ⟨u, h, rfl, rfl⟩
  obtain ⟨scheme, heq, hletter, hchars, hlower⟩ := splitScheme_spec (hs ▸ hscheme)
  obtain ⟨heq', hauthority, hrest⟩ := splitNetloc_spec (hn ▸ hnetloc)
  rw [heq', hn] at heq
  rw [hn] at hauthority
  exact ⟨hok, scheme, _, ⟨heq, hletter, hchars, hauthority, hrest⟩, hs.symm.trans hlower⟩

/-! ### What does not move the authority -/

/-- What follows the authority may be longer. -/
lemma Hierarchical.append (h : Hierarchical text scheme authority rest) {t : PyStr}
    (ht : ∀ c ∈ t.head?, isNetlocEnd c) :
    Hierarchical (text ++ t) scheme authority (rest ++ t) where
  eq := by rw [h.eq]; simp
  letter := h.letter
  scheme_chars := h.scheme_chars
  authority_chars := h.authority_chars
  rest_head := by
    cases rest with
    | nil => exact ht
    | cons c rest => exact h.rest_head

/-- A URL with an authority is not blank. -/
lemma exists_large (h : Hierarchical (clean url) scheme authority rest) : ∃ c ∈ url, 0x20 < c := by
  obtain ⟨c, s, hs, hletter⟩ := h.letter
  have hlarge : 0x20 < c := (ne_of_isSchemeChar (h.scheme_chars c (by simp [hs]))).1
  refine ⟨c, (mem_clean hlarge).mp ?_, hlarge⟩
  rw [h.eq, hs]
  exact List.mem_cons_self

/-- The two ways to split agree on the scheme, the case of its letters apart, and on the
authority of a URL that has both. -/
theorem components_eq (h : urlsplit bracketedHost nfkcNetloc url = some u) (hscheme : u.scheme ≠ [])
    (hnetloc : u.netloc ≠ []) :
    (Rfc3986.components (clean url)).scheme.map (·.map lowerAscii) = some u.scheme ∧
      (Rfc3986.components (clean url)).authority = some u.netloc := by
  obtain ⟨-, scheme, rest, hh, hlower⟩ := hierarchical_of_urlsplit h hscheme hnetloc
  obtain ⟨hs, hn⟩ := hh.components
  exact ⟨by rw [hs, Option.map_some, hlower], hn⟩

/-- **A path behind a URL** does not move its authority. -/
theorem urlsplit_append (h : urlsplit bracketedHost nfkcNetloc url = some u)
    (hscheme : u.scheme ≠ [])
    (hnetloc : u.netloc ≠ []) (path : PyStr) :
    ∃ v, urlsplit bracketedHost nfkcNetloc (url ++ 0x2f :: path) = some v ∧
      v.scheme = u.scheme ∧ v.netloc = u.netloc := by
  obtain ⟨hok, scheme, rest, hh, hlower⟩ := hierarchical_of_urlsplit h hscheme hnetloc
  have hclean := clean_append (exists_large hh) (0x2f :: path)
  rw [List.filter_cons_of_pos (by decide)] at hclean
  have happend : Hierarchical (clean (url ++ 0x2f :: path)) scheme u.netloc _ :=
    hclean ▸ hh.append (by rintro c hc; obtain rfl := Option.some.inj hc; decide)
  obtain ⟨v, hv, hs, hn⟩ := happend.urlsplit hok
  exact ⟨v, hv, hs.trans hlower.symm, hn⟩

/-- What `urlunsplit` puts behind a network location. -/
lemma exists_urlunsplit_eq (hscheme : u.scheme ≠ []) (hnetloc : u.netloc ≠ []) :
    ∃ t, urlunsplit u = u.scheme ++ 0x3a :: 0x2f :: 0x2f :: (u.netloc ++ t) ∧
      ∀ c ∈ t.head?, isNetlocEnd c := by
  set path := if u.path ≠ [] ∧ u.path.head? ≠ some 0x2f then 0x2f :: u.path else u.path with hpath
  set query := if u.query ≠ [] then 0x3f :: u.query else [] with hquery
  set fragment := if u.fragment ≠ [] then 0x23 :: u.fragment else [] with hfragment
  -- the first part that is not empty begins with its separator
  have hhead : ∀ {a b : PyStr}, (∀ c ∈ a.head?, isNetlocEnd c) → (∀ c ∈ b.head?, isNetlocEnd c) →
      ∀ c ∈ (a ++ b).head?, isNetlocEnd c := by
    intro a b ha hb
    cases a with
    | nil => exact hb
    | cons c a => exact ha
  refine ⟨path ++ query ++ fragment, ?_, hhead (hhead ?_ ?_) ?_⟩
  · rw [urlunsplit_eq]
    simp [urlunsplit, hnetloc, hscheme, hpath, hquery, hfragment]
  · rw [hpath]
    split_ifs with hslash
    · rintro c hc
      obtain rfl := Option.some.inj hc
      decide
    · intro c hc
      by_cases hempty : u.path = []
      · simp [hempty] at hc
      · have hc' : u.path.head? = some 0x2f := by
          by_contra hne
          exact hslash ⟨hempty, hne⟩
        obtain rfl := Option.some.inj (hc'.symm.trans hc)
        decide
  · rw [hquery]
    split_ifs
    · rintro c hc
      obtain rfl := Option.some.inj hc
      decide
    · rintro c ⟨⟩
  · rw [hfragment]
    split_ifs
    · rintro c hc
      obtain rfl := Option.some.inj hc
      decide
    · rintro c ⟨⟩

/-- A text without blanks, tabs and line ends stays as it is. -/
lemma clean_eq_self (h : ∀ c ∈ text, c ≠ 0x09 ∧ c ≠ 0x0d ∧ c ≠ 0x0a)
    (hhead : ∀ c ∈ text.head?, 0x20 < c) : clean text = text := by
  rw [clean]
  cases text with
  | nil => rfl
  | cons c text =>
      have hc : 0x20 < c := hhead c rfl
      rw [List.dropWhile_cons_of_neg (by simpa using hc), List.filter_eq_self]
      exact fun d hd => decide_eq_true (h d hd)

/-- A delimiter is not removed. -/
lemma filter_head {t : PyStr} (h : ∀ c ∈ t.head?, isNetlocEnd c) :
    ∀ c ∈ (t.filter fun c => c ≠ 0x09 ∧ c ≠ 0x0d ∧ c ≠ 0x0a).head?, isNetlocEnd c := by
  cases t with
  | nil => simp
  | cons d t =>
      have hd : isNetlocEnd d := h d rfl
      have hkeep : d ≠ 0x09 ∧ d ≠ 0x0d ∧ d ≠ 0x0a := by
        have := of_decide_eq_true hd
        omega
      rw [List.filter_cons, if_pos (decide_eq_true hkeep)]
      exact h

/-- **Another scheme** does not move the authority of a URL. -/
theorem urlsplit_urlunsplit (h : urlsplit bracketedHost nfkcNetloc url = some u)
    (hscheme : u.scheme ≠ []) (hnetloc : u.netloc ≠ []) {scheme : PyStr}
    (hletter : ∃ c s, scheme = c :: s ∧ isLetter c) (hchars : ∀ c ∈ scheme, isSchemeChar c) :
    ∃ v, urlsplit bracketedHost nfkcNetloc (urlunsplit { u with scheme := scheme }) = some v ∧
      v.scheme = scheme.map lowerAscii ∧ v.netloc = u.netloc := by
  obtain ⟨hok, oldScheme, rest, hh, -⟩ := hierarchical_of_urlsplit h hscheme hnetloc
  have hne : scheme ≠ [] := by
    obtain ⟨c, s, rfl, -⟩ := hletter
    exact List.cons_ne_nil c s
  obtain ⟨t, ht, hhead⟩ := @exists_urlunsplit_eq { u with scheme := scheme } hne hnetloc
  -- what `clean` removes is not in the netloc, which it has passed already
  have hremoved : ∀ c ∈ u.netloc, c ≠ 0x09 ∧ c ≠ 0x0d ∧ c ≠ 0x0a := by
    intro c hc
    have hmem : c ∈ clean url := by
      rw [hh.eq]
      simp [hc]
    exact of_decide_eq_true (List.mem_filter.mp hmem).2
  -- the text up to the end of the authority
  set front := scheme ++ 0x3a :: 0x2f :: 0x2f :: u.netloc with hfront
  have hclean : clean front = front := by
    refine clean_eq_self (fun c hc => ?_) fun c hc => ?_
    · rw [hfront] at hc
      simp only [List.mem_append, List.mem_cons] at hc
      rcases hc with hc | rfl | rfl | rfl | hc
      · have := (ne_of_isSchemeChar (hchars c hc)).1
        omega
      · decide
      · decide
      · decide
      · exact hremoved c hc
    · obtain ⟨d, s, rfl, -⟩ := hletter
      obtain rfl := Option.some.inj hc
      exact (ne_of_isSchemeChar (hchars d List.mem_cons_self)).1
  have hfrontHierarchical : Hierarchical (clean front) scheme u.netloc [] :=
    ⟨by rw [hclean, hfront, List.append_nil], hletter, hchars, hh.authority_chars, by simp⟩
  -- behind it comes what ends an authority
  have htext : urlunsplit { u with scheme := scheme } = front ++ t := by
    rw [ht, hfront]
    simp
  have hrest := filter_head hhead
  have hall := hfrontHierarchical.append hrest
  rw [← clean_append (exists_large hfrontHierarchical), ← htext] at hall
  exact hall.urlsplit hok

end Url
