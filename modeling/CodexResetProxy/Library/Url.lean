import CodexResetProxy.Library.PyStr

/-!
`urllib.parse`: URLs taken apart and put together.

The two checks of a network location that need tables of the standard library are
parameters: whether the text in brackets is an address of IPv6 or later
(`bracketedHost`), and whether a location that is not ASCII keeps its delimiters
under NFKC (`nfkcNetloc`).

* `urlsplit`, `urlunsplit`: the functions of these names.
* `urlsplit_concat`: what becomes of a question mark at the end.
* `hostname`, `port`: the properties of the result.
-/

namespace Url

open PyStr

/-- `SplitResult`. -/
structure SplitResult where
  scheme : PyStr
  netloc : PyStr
  path : PyStr
  query : PyStr
  fragment : PyStr
  deriving DecidableEq

/-! ### Taking apart -/

/-- A letter of ASCII. -/
def isLetter (c : ℕ) : Bool := (0x41 ≤ c ∧ c ≤ 0x5a) ∨ (0x61 ≤ c ∧ c ≤ 0x7a)

/-- `scheme_chars`. -/
def isSchemeChar (c : ℕ) : Bool :=
  isLetter c ∨ (0x30 ≤ c ∧ c ≤ 0x39) ∨ c = 0x2b ∨ c = 0x2d ∨ c = 0x2e

/-- What `urlsplit` removes first: C0 controls and blanks in front, and tabs and
line ends everywhere. -/
def clean (url : PyStr) : PyStr :=
  (url.dropWhile (· ≤ 0x20)).filter fun c => c ≠ 0x09 ∧ c ≠ 0x0d ∧ c ≠ 0x0a

/-- The scheme, and what follows it. -/
def splitScheme (url : PyStr) : PyStr × PyStr :=
  match cut 0x3a url with
  | (c :: s, some rest) =>
      if isLetter c ∧ ∀ d ∈ c :: s, isSchemeChar d then ((c :: s).map lowerAscii, rest)
      else ([], url)
  | _ => ([], url)

/-- The delimiters after a network location. -/
def isNetlocEnd (c : ℕ) : Bool := c = 0x2f ∨ c = 0x3f ∨ c = 0x23

/-- The network location, and what follows it. -/
def splitNetloc : PyStr → PyStr × PyStr
  | 0x2f :: 0x2f :: s => (s.takeWhile (!isNetlocEnd ·), s.dropWhile (!isNetlocEnd ·))
  | s => ([], s)

/-- `_check_bracketed_netloc`. -/
def checkBracketedNetloc (bracketedHost : PyStr → Bool) (netloc : PyStr) : Bool :=
  let hostnameAndPort := (rcut 0x40 netloc).2
  match cut 0x5b hostnameAndPort with
  | (before, some bracketed) =>
      let (hostname, port) := cut 0x5d bracketed
      before = [] ∧ (port.getD []).head? ∈ [none, some 0x3a] ∧ bracketedHost hostname
  | (_, none) => bracketedHost (cut 0x3a hostnameAndPort).1

/-- `urlsplit`, with `none` for a `ValueError`. -/
def urlsplit (bracketedHost nfkcNetloc : PyStr → Bool) (url : PyStr) : Option SplitResult :=
  let (scheme, url) := splitScheme (clean url)
  let (netloc, url) := splitNetloc url
  if (0x5b ∈ netloc ∧ 0x5d ∉ netloc) ∨ (0x5d ∈ netloc ∧ 0x5b ∉ netloc) then none
  else if 0x5b ∈ netloc ∧ !checkBracketedNetloc bracketedHost netloc then none
  else
    let (url, fragment) := cut 0x23 url
    let (path, query) := cut 0x3f url
    if (∃ c ∈ netloc, 0x80 ≤ c) ∧ !nfkcNetloc netloc then none
    else some ⟨scheme, netloc, path, query.getD [], fragment.getD []⟩

namespace SplitResult

variable (u : SplitResult)

/-- `_hostinfo`: the host, and the text of the port if it is not empty. -/
def hostinfo : PyStr × Option PyStr :=
  let hostinfo := (rcut 0x40 u.netloc).2
  let (hostname, port) :=
    match cut 0x5b hostinfo with
    | (_, some bracketed) =>
        let (hostname, port) := cut 0x5d bracketed
        (hostname, (cut 0x3a (port.getD [])).2)
    | (_, none) => cut 0x3a hostinfo
  (hostname, port.filter (· ≠ []))

/-- `hostname`: a zone after `%` keeps its case. -/
def hostname (lower : PyStr → PyStr) : Option PyStr :=
  match u.hostinfo.1 with
  | [] => none
  | hostname =>
      match cut 0x25 hostname with
      | (host, some zone) => some (lower host ++ 0x25 :: zone)
      | (host, none) => some (lower host)

/-- `port`, with an outer `none` for a `ValueError`. -/
def port : Option (Option ℕ) :=
  match u.hostinfo.2 with
  | none => some none
  | some digits =>
      if digits.length ≤ 4300 ∧ ∀ c ∈ digits, 0x30 ≤ c ∧ c ≤ 0x39 then
        let n := digits.foldl (fun n c => n * 10 + (c - 0x30)) 0
        if n ≤ 65535 then some (some n) else none
      else none

/-- `username` and `password`. -/
def userinfo : Option PyStr × Option PyStr :=
  match rcut 0x40 u.netloc with
  | (some userinfo, _) => (some (cut 0x3a userinfo).1, (cut 0x3a userinfo).2)
  | (none, _) => (none, none)

end SplitResult

/-! ### Putting together -/

/-- `uses_netloc`. -/
def usesNetloc : List PyStr :=
  ["", "ftp", "http", "gopher", "nntp", "telnet", "imap", "wais", "file", "mms", "https", "shttp",
    "snews", "prospero", "rtsp", "rtsps", "rtspu", "rsync", "svn", "svn+ssh", "sftp", "nfs", "git",
    "git+ssh", "ws", "wss", "itms-services"].map py

/-- `urlunsplit`. -/
def urlunsplit (u : SplitResult) : PyStr :=
  let url :=
    if u.netloc ≠ [] then
      [0x2f, 0x2f] ++ u.netloc ++
        (if u.path ≠ [] ∧ u.path.head? ≠ some 0x2f then 0x2f :: u.path else u.path)
    else if [0x2f, 0x2f] <+: u.path then [0x2f, 0x2f] ++ u.path
    else if u.scheme ≠ [] ∧ u.scheme ∈ usesNetloc ∧ u.path.head? ∈ [none, some 0x2f] then
      [0x2f, 0x2f] ++ u.path
    else u.path
  let url := if u.scheme ≠ [] then u.scheme ++ 0x3a :: url else url
  let url := if u.query ≠ [] then url ++ 0x3f :: u.query else url
  if u.fragment ≠ [] then url ++ 0x23 :: u.fragment else url

/-! ### A question mark at the end -/

variable {s url : PyStr}

/-- A text is cut at the first separator, whatever follows the text. -/
lemma cut_concat {c d : ℕ} (hcd : c ≠ d) (s : PyStr) : cut c (s ++ [d]) =
    match cut c s with
    | (a, none) => (a ++ [d], none)
    | (a, some b) => (a, some (b ++ [d])) := by
  by_cases hmem : c ∈ s
  · obtain ⟨a, b, rfl, ha⟩ := List.eq_append_cons_of_mem hmem
    rw [List.append_assoc, List.cons_append, cut_append ha, cut_append ha]
  · have hmem' : c ∉ s ++ [d] := by simp [hmem, hcd]
    rw [cut_of_notMem hmem, cut_of_notMem hmem']

lemma mem_clean {c : ℕ} (hc : 0x20 < c) : c ∈ clean url ↔ c ∈ url := by
  have hdrop : c ∈ url.dropWhile (· ≤ 0x20) ↔ c ∈ url := by
    induction url with
    | nil => rfl
    | cons d url ih =>
        rw [List.dropWhile_cons]
        split_ifs with hd
        · have hne : c ≠ d := by
            have := of_decide_eq_true hd
            omega
          rw [ih, List.mem_cons, or_iff_right hne]
        · rfl
  rw [clean, List.mem_filter, hdrop, decide_eq_true_iff]
  exact and_iff_left (by omega)

/-- What follows a text that is not blank loses its tabs and line ends. -/
lemma clean_append (h : ∃ c ∈ url, 0x20 < c) (t : PyStr) : clean (url ++ t)
    = clean url ++ t.filter fun c => c ≠ 0x09 ∧ c ≠ 0x0d ∧ c ≠ 0x0a := by
  obtain ⟨c, hc, hlarge⟩ := h
  have hne : url.dropWhile (· ≤ 0x20) ≠ [] := by
    rw [Ne, List.dropWhile_eq_nil_iff]
    intro hall
    have := of_decide_eq_true (hall c hc)
    omega
  rw [clean, clean, List.dropWhile_append, if_neg (by simpa using hne), List.filter_append]

lemma clean_concat (h : ∃ c ∈ url, 0x20 < c) : clean (url ++ [0x3f]) = clean url ++ [0x3f] := by
  rw [clean_append h]
  rfl

lemma splitScheme_concat (s : PyStr) :
    splitScheme (s ++ [0x3f]) = ((splitScheme s).1, (splitScheme s).2 ++ [0x3f]) := by
  rw [splitScheme, splitScheme, cut_concat (by decide)]
  cases cut 0x3a s with
  | mk a b =>
      cases b with
      | none => cases a <;> rfl
      | some b =>
          cases a with
          | nil => rfl
          | cons c a =>
              dsimp only
              split_ifs <;> rfl

lemma splitNetloc_concat (s : PyStr) :
    splitNetloc (s ++ [0x3f]) = ((splitNetloc s).1, (splitNetloc s).2 ++ [0x3f]) := by
  rw [splitNetloc.eq_def s]
  split
  · rename_i t
    -- the netloc ends where it ended, since a question mark ends it
    have htake : (t ++ [0x3f]).takeWhile (!isNetlocEnd ·) = t.takeWhile (!isNetlocEnd ·) := by
      rw [List.takeWhile_append]
      split_ifs with hall
      · rw [List.takeWhile_cons_of_neg (by decide), List.append_nil, List.takeWhile_eq_self_iff.mpr]
        exact List.takeWhile_eq_self_iff.mp (List.takeWhile_prefix _ |>.eq_of_length hall)
      · rfl
    have hdrop : (t ++ [0x3f]).dropWhile (!isNetlocEnd ·)
        = t.dropWhile (!isNetlocEnd ·) ++ [0x3f] := by
      rw [List.dropWhile_append]
      split_ifs with hall
      · rw [List.isEmpty_iff.mp hall]
        rfl
      · rfl
    show ((t ++ [0x3f]).takeWhile _, (t ++ [0x3f]).dropWhile _) = _
    rw [htake, hdrop]
  · rename_i hnot
    rw [splitNetloc.eq_def]
    split
    · rename_i t heq
      exfalso
      -- two slashes are there with the question mark just when they were before
      match s, heq with
      | [], heq => simp at heq
      | [c], heq => simp at heq
      | c :: d :: s, heq =>
          simp only [List.cons_append, List.cons.injEq] at heq
          obtain ⟨rfl, rfl, -⟩ := heq
          exact hnot s rfl
    · rfl

/-- The characters that end a network location come after it. -/
lemma mem_splitNetloc {c : ℕ} (hend : isNetlocEnd c) (hslash : c ≠ 0x2f) :
    c ∈ (splitNetloc s).2 ↔ c ∈ s := by
  rw [splitNetloc.eq_def]
  split
  · rename_i t
    have hnot : c ∉ t.takeWhile (!isNetlocEnd ·) := by
      intro hmem
      have := List.mem_takeWhile_imp hmem
      simp [hend] at this
    have hsplit : c ∈ t ↔ c ∈ t.takeWhile (!isNetlocEnd ·) ++ t.dropWhile (!isNetlocEnd ·) := by
      rw [List.takeWhile_append_dropWhile]
    rw [List.mem_cons, List.mem_cons, hsplit, List.mem_append, or_iff_right hslash,
      or_iff_right hslash, or_iff_right hnot]
  · rfl

lemma mem_splitScheme {c : ℕ} (hscheme : isSchemeChar c = false) (hcolon : c ≠ 0x3a) :
    c ∈ (splitScheme s).2 ↔ c ∈ s := by
  rw [splitScheme]
  split
  · rename_i d a rest hcut
    split_ifs with hall
    · obtain ⟨rfl, -⟩ := eq_of_cut_eq_some hcut
      have hnot : c ∉ d :: a := fun hmem => by simpa [hscheme] using hall.2 c hmem
      rw [List.mem_append, or_iff_right hnot, List.mem_cons, or_iff_right hcolon]
    · rfl
  · rfl

/-- **A question mark at the end** of a URL goes to its fragment, or to its query, or
is an empty query. -/
theorem urlsplit_concat (bracketedHost nfkcNetloc : PyStr → Bool) (h : ∃ c ∈ url, 0x20 < c) :
    urlsplit bracketedHost nfkcNetloc (url ++ [0x3f])
      = (urlsplit bracketedHost nfkcNetloc url).map fun u =>
          if 0x23 ∈ url then { u with fragment := u.fragment ++ [0x3f] }
          else if 0x3f ∈ url then { u with query := u.query ++ [0x3f] }
          else u := by
  -- the separators are left of the URL when scheme and netloc are split off
  have hmem : ∀ c, isSchemeChar c = false → c ≠ 0x3a → isNetlocEnd c → c ≠ 0x2f → 0x20 < c →
      (c ∈ (splitNetloc (splitScheme (clean url)).2).2 ↔ c ∈ url) := by
    intro c hscheme hcolon hend hslash hlarge
    rw [mem_splitNetloc hend hslash, mem_splitScheme hscheme hcolon, mem_clean hlarge]
  have hhash := hmem 0x23 (by decide) (by decide) (by decide) (by decide) (by decide)
  have hquery := hmem 0x3f (by decide) (by decide) (by decide) (by decide) (by decide)
  rw [urlsplit, urlsplit, clean_concat h, splitScheme_concat]
  dsimp only
  rw [splitNetloc_concat]
  dsimp only
  set scheme := (splitScheme (clean url)).1
  set netloc := (splitNetloc (splitScheme (clean url)).2).1
  set rest := (splitNetloc (splitScheme (clean url)).2).2
  -- the three checks of the netloc, which is the same for both
  by_cases hbrackets : (0x5b ∈ netloc ∧ 0x5d ∉ netloc) ∨ (0x5d ∈ netloc ∧ 0x5b ∉ netloc)
  · rw [if_pos hbrackets, if_pos hbrackets]
    rfl
  rw [if_neg hbrackets, if_neg hbrackets]
  by_cases hhost : 0x5b ∈ netloc ∧ !checkBracketedNetloc bracketedHost netloc
  · rw [if_pos hhost, if_pos hhost]
    rfl
  rw [if_neg hhost, if_neg hhost]
  by_cases hnfkc : (∃ c ∈ netloc, 0x80 ≤ c) ∧ !nfkcNetloc netloc
  · rw [if_pos hnfkc, if_pos hnfkc]
    rfl
  rw [if_neg hnfkc, if_neg hnfkc, Option.map_some, cut_concat (by decide)]
  -- the first `#` and the first `?` are where they were
  by_cases hfragment : 0x23 ∈ url
  · obtain ⟨a, b, hrest, ha⟩ := List.eq_append_cons_of_mem (hhash.mpr hfragment)
    rw [if_pos hfragment, hrest, cut_append ha]
    rfl
  rw [if_neg hfragment, cut_of_notMem fun hc => hfragment (hhash.mp hc)]
  by_cases hq : 0x3f ∈ url
  · obtain ⟨a, b, hrest, ha⟩ := List.eq_append_cons_of_mem (hquery.mpr hq)
    rw [if_pos hq, hrest]
    dsimp only
    rw [List.append_assoc, List.cons_append, cut_append ha, cut_append ha]
    rfl
  · have hnot : 0x3f ∉ rest := fun hc => hq (hquery.mp hc)
    rw [if_neg hq]
    dsimp only
    rw [cut_append hnot, cut_of_notMem hnot]
    rfl

/-! ### A path -/

/-- A text with a slash in front has no scheme. -/
lemma splitScheme_slash (s : PyStr) : splitScheme (0x2f :: s) = ([], 0x2f :: s) := by
  by_cases hmem : 0x3a ∈ s
  · obtain ⟨a, b, rfl, ha⟩ := List.eq_append_cons_of_mem hmem
    have hcut := cut_append (show 0x3a ∉ 0x2f :: a by simp [ha]) b
    rw [splitScheme, show 0x2f :: (a ++ 0x3a :: b) = 0x2f :: a ++ 0x3a :: b from rfl, hcut]
    dsimp only
    rw [if_neg fun h => Bool.false_ne_true h.1]
  · rw [splitScheme, cut_of_notMem (by simp [hmem])]

lemma mem_of_mem_netloc {c : ℕ} (h : c ∈ (splitNetloc s).1) : c ∈ s := by
  rw [splitNetloc.eq_def] at h
  split at h
  · have := List.takeWhile_subset _ h
    simp [this]
  · exact absurd h List.not_mem_nil

/-- **A path** of plain characters is split, and has no scheme. -/
theorem urlsplit_slash (bracketedHost nfkcNetloc : PyStr → Bool)
    (h : ∀ c ∈ s, 0x20 < c ∧ c < 0x80 ∧ c ≠ 0x5b ∧ c ≠ 0x5d) :
    ∃ u, urlsplit bracketedHost nfkcNetloc (0x2f :: s) = some u ∧ u.scheme = [] := by
  have hplain : ∀ c ∈ 0x2f :: s, 0x20 < c ∧ c < 0x80 ∧ c ≠ 0x5b ∧ c ≠ 0x5d :=
    List.forall_mem_cons.mpr ⟨by decide, h⟩
  have hclean : clean (0x2f :: s) = 0x2f :: s := by
    rw [clean, List.dropWhile_cons_of_neg (by decide), List.filter_eq_self]
    intro c hc
    have := (hplain c hc).1
    exact decide_eq_true (by omega)
  have hnetloc : ∀ c ∈ (splitNetloc (0x2f :: s)).1, 0x20 < c ∧ c < 0x80 ∧ c ≠ 0x5b ∧ c ≠ 0x5d :=
    fun c hc => hplain c (mem_of_mem_netloc hc)
  have hopen : 0x5b ∉ (splitNetloc (0x2f :: s)).1 := fun hc => (hnetloc _ hc).2.2.1 rfl
  have hclose : 0x5d ∉ (splitNetloc (0x2f :: s)).1 := fun hc => (hnetloc _ hc).2.2.2 rfl
  have hascii : ¬∃ c ∈ (splitNetloc (0x2f :: s)).1, 0x80 ≤ c := by
    rintro ⟨c, hc, hlarge⟩
    have := (hnetloc c hc).2.1
    omega
  rw [urlsplit, hclean, splitScheme_slash]
  dsimp only
  rw [if_neg (by simp [hopen, hclose]), if_neg fun h => hopen h.1, if_neg fun h => hascii h.1]
  exact ⟨_, rfl, rfl⟩

/-! ### What is put together -/

/-- Query and fragment come last. -/
lemma urlunsplit_eq (u : SplitResult) :
    urlunsplit u = urlunsplit { u with query := [], fragment := [] }
      ++ (if u.query ≠ [] then 0x3f :: u.query else [])
      ++ if u.fragment ≠ [] then 0x23 :: u.fragment else [] := by
  by_cases hquery : u.query = [] <;> by_cases hfragment : u.fragment = [] <;>
    simp [urlunsplit, hquery, hfragment]

/-- A longer fragment makes a longer URL. -/
lemma urlunsplit_fragment_ne (u : SplitResult) (c : ℕ) :
    urlunsplit { u with fragment := u.fragment ++ [c] } ≠ urlunsplit u := by
  intro heq
  rw [urlunsplit_eq, urlunsplit_eq u] at heq
  have hlength := congrArg List.length (List.append_cancel_left heq)
  split_ifs at hlength <;> simp_all

/-- A longer query makes a longer URL. -/
lemma urlunsplit_query_ne (u : SplitResult) (c : ℕ) :
    urlunsplit { u with query := u.query ++ [c] } ≠ urlunsplit u := by
  intro heq
  rw [urlunsplit_eq, urlunsplit_eq u] at heq
  have hlength := congrArg List.length (List.append_cancel_left (List.append_cancel_right heq))
  split_ifs at hlength <;> simp_all

end Url
