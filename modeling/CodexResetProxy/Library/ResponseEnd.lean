import CodexResetProxy.Library.ChunkReader

/-!
Where a response ends is settled by its bytes.

* `IsStatusLine.unique`, `IsFieldLine.unique`: a line says one thing.
* `IsResponse.eq_of_append`: **no response is the beginning of another**, where the end of
  its body is not that of the connection.
-/

namespace Http1

open ByteStr

variable {s t line name name' value value' b b' : Bytes}

/-! ### Lines -/

lemma IsStatusLine.unique {m n : ℕ} (hm : IsStatusLine line m) (hn : IsStatusLine line n) :
    m = n := by
  obtain ⟨digits, reason, hlen, -, rfl, -, rfl⟩ := hm
  obtain ⟨digits', reason', hlen', -, rfl, -, heq⟩ := hn
  rw [List.append_assoc, List.append_assoc] at heq
  rw [(List.append_inj (List.append_cancel_left heq) (hlen.trans hlen'.symm)).1]

lemma dropWhile_of_head? (h : ∀ c ∈ s.head?, ¬IsBlank c) : s.dropWhile (IsBlank ·) = s := by
  cases s with
  | nil => rfl
  | cons c s => exact List.dropWhile_cons_of_neg (by simpa using h c rfl)

/-- The blanks around a value are not part of it. -/
lemma trimBlanks_eq (hb : IsBlanks b) (hb' : IsBlanks b') (hvalue : IsFieldValue value) :
    trimBlanks (b ++ value ++ b') = value := by
  have hblank : ∀ c ∈ b, decide (IsBlank c) = true := fun c hc => decide_eq_true (hb c hc)
  have hblank' : ∀ c ∈ b'.reverse, decide (IsBlank c) = true := fun c hc =>
    decide_eq_true (hb' c (List.mem_reverse.mp hc))
  rw [trimBlanks, List.append_assoc, List.dropWhile_append_of_pos hblank]
  cases value with
  | nil =>
      have hnone : ([] ++ b').dropWhile (IsBlank ·) = [] :=
        List.dropWhile_eq_nil_iff.mpr fun c hc => decide_eq_true (hb' c hc)
      rw [hnone]
      rfl
  | cons c value =>
      have hfront : ∀ d ∈ ((c :: value) ++ b').head?, ¬IsBlank d := fun d hd =>
        hvalue.first d hd
      have hback : ∀ d ∈ (c :: value).reverse.head?, ¬IsBlank d := fun d hd =>
        hvalue.last d (by rwa [List.head?_reverse] at hd)
      rw [dropWhile_of_head? hfront, List.reverse_append, List.dropWhile_append_of_pos hblank',
        dropWhile_of_head? hback, List.reverse_reverse]

/-- The name of a field ends at the first colon. -/
lemma takeWhile_fieldLine (hname : IsToken name) (t : Bytes) :
    (name ++ 0x3a :: t).takeWhile (· ≠ 0x3a) = name := by
  have hne : ∀ c ∈ name, decide (c ≠ 0x3a) = true := by
    refine fun c hc => decide_eq_true fun heq => ?_
    exact absurd (heq ▸ hname.2 c hc) (by decide)
  rw [List.takeWhile_append_of_pos hne, List.takeWhile_cons_of_neg (by decide), List.append_nil]

/-- **A field line says one thing.** -/
theorem IsFieldLine.unique (h : IsFieldLine line name value) (h' : IsFieldLine line name' value') :
    name = name' ∧ value = value' := by
  obtain ⟨b, b', hb, hb', hline⟩ := h.eq
  obtain ⟨c, c', hc, hc', hline'⟩ := h'.eq
  have hname : name = name' := by
    rw [← takeWhile_fieldLine h.name_token (b ++ value ++ b'), ← hline, hline',
      takeWhile_fieldLine h'.name_token]
  subst hname
  have hrest := (List.cons.inj (List.append_cancel_left (hline.symm.trans hline'))).2
  rw [← trimBlanks_eq hb hb' h.isValue, hrest, trimBlanks_eq hc hc' h'.isValue]
  exact ⟨rfl, rfl⟩

lemma fieldLines_unique {lines : List Bytes} {headers headers' : List (Bytes × Bytes)}
    (h : List.Forall₂ (fun line h => IsFieldLine line h.1 h.2) lines headers)
    (h' : List.Forall₂ (fun line h => IsFieldLine line h.1 h.2) lines headers') :
    headers = headers' := by
  induction h generalizing headers' with
  | nil =>
      cases h'
      rfl
  | cons hline _ ih =>
      cases h' with
      | cons hline' hrest =>
          obtain ⟨hname, hvalue⟩ := hline.unique hline'
          rw [Prod.ext hname hvalue, ih hrest]

/-! ### Bodies -/

/-- No body is the beginning of another, where its own end is found. -/
lemma IsBody.eq_of_append {framing : BodyFraming} {body body' : Bytes}
    (h : IsBody framing s body) (h' : IsBody framing (s ++ t) body')
    (hclose : framing ≠ .untilClose) : t = [] ∧ body = body' := by
  cases framing with
  | absent =>
      obtain ⟨rfl, rfl⟩ := h
      obtain ⟨ht, rfl⟩ := h'
      exact ⟨ht, rfl⟩
  | chunked =>
      have hended : (readChunked s).place = .ended := by
        rw [readChunked_of_chunkedBody h]
      obtain rfl := (ended_iff h').mp hended
      rw [List.append_nil] at h'
      have hboth := (readChunked_of_chunkedBody h).symm.trans (readChunked_of_chunkedBody h')
      exact ⟨rfl, congrArg ChunkReader.payload hboth⟩
  | length n =>
      obtain ⟨rfl, hn⟩ := h
      obtain ⟨rfl, hn'⟩ := h'
      rw [List.length_append] at hn'
      obtain rfl : t = [] := List.length_eq_zero_iff.mp (by omega)
      exact ⟨rfl, (List.append_nil s).symm⟩
  | untilClose => exact absurd rfl hclose
  | invalid => exact absurd h id

/-! ### Responses -/

/-- **No response is the beginning of another**, if the end of its body is not that of
the connection. -/
theorem IsResponse.eq_of_append {method : Bytes} {r r' : Response} (h : IsResponse method s r)
    (h' : IsResponse method (s ++ t) r')
    (hclose : bodyFraming method r'.statusCode r'.headers ≠ .untilClose) : t = [] ∧ r = r' := by
  obtain ⟨start, lines, content, hstart, hlines, hbody, rfl⟩ := h.bytes
  obtain ⟨start', lines', content', hstart', hlines', hbody', heq⟩ := h'.bytes
  rw [List.append_assoc _ content] at heq
  obtain ⟨hhead, hcontent⟩ := lineBytes_inj (linefeed_notMem_head hstart hlines)
    (linefeed_notMem_head hstart' hlines') heq
  obtain ⟨rfl, rfl⟩ := List.cons.inj hhead
  have hstatus := hstart.unique hstart'
  have hheaders := fieldLines_unique hlines hlines'
  rw [hstatus, hheaders] at hbody
  rw [← hcontent] at hbody'
  obtain ⟨ht, hsame⟩ := hbody.eq_of_append hbody' hclose
  obtain ⟨statusCode, headers, body⟩ := r
  obtain ⟨statusCode', headers', body'⟩ := r'
  dsimp only at hstatus hheaders hsame
  rw [hstatus, hheaders, hsame]
  exact ⟨ht, rfl⟩

end Http1
