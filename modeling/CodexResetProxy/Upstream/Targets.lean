import CodexResetProxy.Library.Percent
import CodexResetProxy.Library.UrlAuthority
import CodexResetProxy.Upstream.Urls

/-!
The two ways from a request target to a URL: through the path and the query that an ASGI
server gives, and through the request line.

* `Target`: a target of ASCII; `requestUrlPath`: what Starlette makes of its path.
* `buildUpstreamUrl_target`, `originPath_target`: when each of the two builders gives the
  base URL followed by the target.
* `appendedUnchanged_iff`: when both do.
-/

namespace CodexResetProxy

open PyStr ByteStr Url Percent

/-- A target of ASCII without `#` and blanks: a path, and behind `?` a query that is not
empty, if there is one. -/
structure Target where
  path : Bytes
  query : Option Bytes
  path_start : path.head? = some 0x2f
  path_chars : ∀ c ∈ path, c < 0x80 ∧ c ≠ 0x20 ∧ c ≠ 0x23 ∧ c ≠ 0x3f
  query_chars : ∀ q ∈ query, q ≠ [] ∧ ∀ c ∈ q, c < 0x80 ∧ c ≠ 0x20 ∧ c ≠ 0x23

/-- The target as it is sent. -/
def Target.bytes (t : Target) : Bytes :=
  t.path ++ match t.query with
    | none => []
    | some query => 0x3f :: query

/-- Neither of the delimiters behind a path. -/
def isPathChar (c : ℕ) : Bool := c ≠ 0x3f ∧ c ≠ 0x23

/-- `request.url.path` of Starlette: the decoded path becomes a part of a URL, loses its
tabs and line ends there, and ends where that URL has its query or its fragment. -/
def requestUrlPath (path : Bytes) : PyStr :=
  ((unquote path).takeWhile isPathChar).filter fun c => c ≠ 0x09 ∧ c ≠ 0x0d ∧ c ≠ 0x0a

/-- What is promised of a target: both builders append it to the base URL. -/
structure AppendedUnchanged (settings : Settings) (rt : Runtime) (t : Target) : Prop where
  reverse : buildUpstreamUrl settings (some t.path) (some (requestUrlPath t.path))
    (some (t.query.getD [])) = some (settings.upstreamBaseUrl ++ decodeLatin1 t.bytes)
  intercepted : (originPath rt (decodeLatin1 t.bytes)).map (upstreamUrl settings)
    = some (settings.upstreamBaseUrl ++ decodeLatin1 t.bytes)

/-- Up to a delimiter, the escapes of the path stand for ASCII. -/
def EscapesAscii (path : Bytes) : Prop :=
  ∀ c ∈ (unquoteToBytes path).takeWhile (fun c => isPathChar c.toNat), c < 0x80

instance (path : Bytes) : Decidable (EscapesAscii path) :=
  inferInstanceAs (Decidable (∀ c ∈ (unquoteToBytes path).takeWhile _, c < 0x80))

/-- The text between two slashes in front and the next slash or question mark, where a URL
would have its authority: tabs and line ends apart. -/
def leadingNetloc (target : PyStr) : PyStr :=
  (splitNetloc (target.filter fun c => c ≠ 0x09 ∧ c ≠ 0x0d ∧ c ≠ 0x0a)).1

/-! ### The path of a request -/

/-- The path of a URL behind its authority. -/
lemma cut_eq_takeWhile (s : PyStr) : (cut 0x3f (cut 0x23 s).1).1 = s.takeWhile isPathChar := by
  rw [cut_fst, cut_fst, List.takeWhile_takeWhile]
  congr 1
  funext c
  simp [isPathChar]

/-- The decoded text of a path starts with a slash. -/
lemma head?_unquote {path : Bytes} (h : path.head? = some 0x2f) :
    (unquote path).head? = some 0x2f := by
  obtain ⟨rest, rfl⟩ := List.head?_eq_some_iff.mp h
  have hslash : unquoteToBytes (0x2f :: rest) = 0x2f :: unquoteToBytes rest := by
    rw [unquoteToBytes]
    simp
  rw [unquote, hslash, decodeReplace_cons_of_lt (by decide)]
  rfl

/-- A text ends before a delimiter that follows it. -/
lemma takeWhile_append_of_head {p : ℕ → Bool} {query : PyStr} (h : ∀ c ∈ query.head?, ¬p c)
    (s : PyStr) : (s ++ query).takeWhile p = s.takeWhile p := by
  rw [List.takeWhile_append]
  split_ifs with hall
  · have hself : s.takeWhile p = s := (List.takeWhile_prefix p).eq_of_length hall
    cases query with
    | nil => rw [List.takeWhile_nil, List.append_nil, hself]
    | cons c query => rw [List.takeWhile_cons_of_neg (h c rfl), List.append_nil, hself]
  · rfl

/-- The definition agrees with the URL that Starlette puts together from the host, the
decoded path and the query. -/
theorem requestUrlPath_eq {rt : Runtime} {host scheme authority query : PyStr} {path : Bytes}
    (h : Hierarchical (clean host) scheme authority [])
    (hok : NetlocOk rt.bracketedHost rt.nfkcNetloc authority) (hpath : path.head? = some 0x2f)
    (hquery : ∀ c ∈ query.head?, c = 0x3f) :
    (rt.urlsplit (host ++ (unquote path ++ query))).map SplitResult.path
      = some (requestUrlPath path) := by
  set target := unquote path ++ query with htarget
  have hhead : ∀ c ∈ target.head?, isNetlocEnd c := by
    obtain ⟨p, hp⟩ := List.head?_eq_some_iff.mp (head?_unquote hpath)
    rw [htarget, hp]
    rintro c hc
    obtain rfl := Option.some.inj hc
    rfl
  have happend := h.append (filter_head hhead)
  rw [← clean_append (exists_large h)] at happend
  have hkeep : (fun c => !decide (c ≠ 0x09 ∧ c ≠ 0x0d ∧ c ≠ 0x0a) || isPathChar c)
      = isPathChar := by
    funext c
    rw [isPathChar, Bool.eq_iff_iff, Bool.or_eq_true, Bool.not_eq_true', decide_eq_false_iff_not,
      decide_eq_true_iff]
    omega
  rw [Runtime.urlsplit, happend.path_urlsplit hok, cut_eq_takeWhile, List.nil_append,
    List.takeWhile_filter, hkeep, htarget, takeWhile_append_of_head, requestUrlPath]
  intro c hc
  obtain rfl := hquery c hc
  decide

variable {settings : Settings} {rt : Runtime} (t : Target)


/-! ### The reverse proxy -/

lemma Target.exists_path : ∃ s, decodeLatin1 t.path = 0x2f :: s := by
  obtain ⟨s, hs⟩ := List.head?_eq_some_iff.mp t.path_start
  exact ⟨decodeLatin1 s, by rw [hs]; rfl⟩

lemma Target.decodeLatin1_bytes : decodeLatin1 t.bytes = decodeLatin1 t.path ++
    match t.query with
    | none => []
    | some query => 0x3f :: decodeLatin1 query := by
  rw [Target.bytes, decodeLatin1, List.map_append]
  cases t.query <;> rfl

/-- The decoded path is ASCII if the escapes stand for ASCII. -/
lemma requestUrlPath_lt {path : Bytes} :
    (∀ c ∈ requestUrlPath path, c < 0x80) ↔ EscapesAscii path := by
  have hfront := takeWhile_decodeReplace_lt (p := isPathChar)
    (fun c hc => decide_eq_true (by omega)) (unquoteToBytes path)
  rw [EscapesAscii, ← hfront]
  constructor
  · intro h c hc
    by_cases hkeep : c ≠ 0x09 ∧ c ≠ 0x0d ∧ c ≠ 0x0a
    · exact h c (List.mem_filter.mpr ⟨hc, decide_eq_true hkeep⟩)
    · omega
  · exact fun h c hc => h c (List.mem_filter.mp hc).1

/-- **The reverse proxy** appends the target if the escapes stand for ASCII, and raises
otherwise: the default for a missing `raw_path` is encoded in any case. -/
theorem buildUpstreamUrl_target : buildUpstreamUrl settings (some t.path)
      (some (requestUrlPath t.path)) (some (t.query.getD []))
    = if EscapesAscii t.path then some (settings.upstreamBaseUrl ++ decodeLatin1 t.bytes)
      else none := by
  obtain ⟨s, hs⟩ := t.exists_path
  have hencode : encodeAscii (requestUrlPath t.path)
      = if EscapesAscii t.path then some ((requestUrlPath t.path).map UInt8.ofNat) else none := by
    rw [encodeAscii, if_congr requestUrlPath_lt rfl rfl]
  rw [buildUpstreamUrl]
  simp only [Option.bind_some, Option.bind_eq_bind, Option.getD_some, hs, List.head?_cons,
    if_true, t.decodeLatin1_bytes, hencode]
  by_cases hascii : EscapesAscii t.path
  · rw [if_pos hascii, if_pos hascii, Option.bind_some]
    cases hquery : t.query with
    | none => simp [decodeLatin1]
    | some query =>
        have hne : query ≠ [] := (t.query_chars query hquery).1
        simp [decodeLatin1, hne]
  · rw [if_neg hascii, if_neg hascii]
    rfl

/-! ### Intercepted connections -/

/-- A target starts with a slash. -/
lemma Target.exists_bytes : ∃ s, decodeLatin1 t.bytes = 0x2f :: s := by
  obtain ⟨s, hs⟩ := t.exists_path
  exact ⟨_, by rw [t.decodeLatin1_bytes, hs]; rfl⟩

/-- **An intercepted request**: its target is appended if it can be split, which depends on
the brackets behind two slashes in front. -/
theorem originPath_target : (originPath rt (decodeLatin1 t.bytes)).map (upstreamUrl settings)
    = if NetlocOk rt.bracketedHost rt.nfkcNetloc (leadingNetloc (decodeLatin1 t.bytes)) then
        some (settings.upstreamBaseUrl ++ decodeLatin1 t.bytes)
      else none := by
  obtain ⟨s, hs⟩ := t.exists_bytes
  set target := decodeLatin1 t.bytes
  have hclean : clean target = target.filter fun c => c ≠ 0x09 ∧ c ≠ 0x0d ∧ c ≠ 0x0a := by
    rw [clean, hs, List.dropWhile_cons_of_neg (by decide)]
  have hscheme : splitScheme (clean target) = ([], clean target) := by
    rw [hclean, hs, List.filter_cons_of_pos (by decide), splitScheme_slash]
  have hsplit := @urlsplit_iff [] target rt.bracketedHost rt.nfkcNetloc (leadingNetloc target)
  rw [hscheme, hclean, and_iff_left ⟨rfl, rfl⟩] at hsplit
  rw [originPath, Runtime.urlsplit]
  by_cases hok : NetlocOk rt.bracketedHost rt.nfkcNetloc (leadingNetloc target)
  · rw [if_pos hok]
    obtain ⟨u, hu, hus, -⟩ := hsplit.mpr hok
    rw [hu]
    simp [hus, hs, upstreamUrl]
  · rw [if_neg hok]
    cases hu : urlsplit rt.bracketedHost rt.nfkcNetloc target with
    | none => rfl
    | some u =>
        obtain ⟨hok', -, hnetloc⟩ := urlsplit_iff.mp ⟨u, hu, rfl, rfl⟩
        rw [hscheme, hclean] at hnetloc
        have heq : leadingNetloc target = u.netloc := hnetloc
        exact absurd (heq ▸ hok') hok

/-! ### Both -/

/-- **When both front ends append the target to the base URL.** -/
theorem appendedUnchanged_iff : AppendedUnchanged settings rt t ↔ EscapesAscii t.path ∧
    NetlocOk rt.bracketedHost rt.nfkcNetloc (leadingNetloc (decodeLatin1 t.bytes)) := by
  have hsome : ∀ {p : Prop} [Decidable p] {url : PyStr},
      (if p then some url else none) = some url ↔ p := by
    intro p _ url
    split_ifs with h <;> simp [h]
  constructor
  · intro h
    exact ⟨hsome.mp ((buildUpstreamUrl_target t).symm.trans h.reverse),
      hsome.mp ((originPath_target t).symm.trans h.intercepted)⟩
  · rintro ⟨hascii, hok⟩
    exact ⟨(buildUpstreamUrl_target t).trans (hsome.mpr hascii),
      (originPath_target t).trans (hsome.mpr hok)⟩

/-- The letter e with an acute accent, in UTF-8. -/
def escapedTarget : Target where
  path := ascii "/caf%C3%A9"
  query := none
  path_start := rfl
  path_chars := by decide +kernel
  query_chars := by simp

/-- The reverse proxy does not get as far as the upstream. -/
theorem not_appendedUnchanged_escaped :
    ¬AppendedUnchanged sampleConfig.settings sampleConfig.runtime escapedTarget := by
  intro h
  have hraised : buildUpstreamUrl sampleConfig.settings (some escapedTarget.path)
      (some (requestUrlPath escapedTarget.path)) (some (escapedTarget.query.getD [])) = none := by
    decide +kernel
  exact Option.some_ne_none _ (h.reverse.symm.trans hraised)

end CodexResetProxy
