import CodexResetProxy.Library.Retry
import CodexResetProxy.Settings

/-!
The plain HTTP transport: `open_upstream_with_retries`, the body generator
`stream_upstream_body` with `close_upstream`, and the front ends that consume it.

Every attempt makes a client of its own. It is closed by the `except` clause that
catches the failure of the attempt, or by `close_upstream` in the `finally` of the
generator, which runs only if the generator was started.

* `serveHttp`: a request, from its first attempt to the end of its response, with
  the record of the clients.
* `allClosed_iff`: when every client is closed in the end.
-/

namespace CodexResetProxy

open PyStr Retry

/-! ### What a request meets -/

/-- An exception of a client, by the classes that the `except` clauses tell
apart: the builtin `TimeoutError`, an `httpx.TimeoutException`, another
`httpx.RequestError`, a `RuntimeError` with its text, or anything else. -/
inductive HttpExc where
  | timeout
  | httpxTimeout (name : String)
  | httpxRequest (name : String)
  | runtime (text : PyStr)
  | other (name : String)
  deriving DecidableEq

/-- What `__aenter__` of the stream context comes to. -/
inductive Entered where
  | headers
  | raised (e : HttpExc)

/-- `app.py`, or `socks_mitm.py`. -/
inductive FrontEnd where
  | reverse
  | socks

/-- What becomes of the operations of a request: of `__aenter__` and `aclose` of
the client of each attempt; of writing the response head; the chunks of
`aiter_raw` and how it ends; of writing each chunk, which also fails when the
client aborts, and what follows them; of `response.aclose` and `__aexit__`. -/
structure Exchange where
  enter : ℕ → Entered
  aclose : ℕ → Option HttpExc
  head : Option HttpExc
  chunks : List (List UInt8)
  rest : Option HttpExc
  write : ℕ → Option HttpExc
  last : Option HttpExc
  responseAclose : Option HttpExc
  exit : Option HttpExc

/-- What is done with a client: it is made by `client_factory`, `aclose` is
called. The number is that of its attempt. -/
inductive ClientEvent where
  | made (client : ℕ)
  | aclosed (client : ℕ)
  deriving DecidableEq

/-! ### Opening -/

/-- `UpstreamOpenError`. -/
structure UpstreamOpenError where
  statusCode : ℕ
  errorCode : String
  message : String
  attempts : ℕ := 1
  deriving DecidableEq

/-- What `open_upstream_with_retries` raises without an attempt. -/
def upstreamRequestFailed : UpstreamOpenError :=
  { statusCode := 502, errorCode := "upstream_request_failed"
    message := "upstream request failed before response headers were received" }

/-- The error that an attempt leaves behind, for the exceptions that
`open_upstream_with_retries` catches. -/
def headerError? (cfg : Config) : HttpExc → Option UpstreamOpenError
  | .timeout =>
      some
        { statusCode := 504, errorCode := "upstream_header_timeout"
          message := "upstream did not return response headers within " ++
            cfg.runtime.formatG cfg.settings.responseHeaderTimeoutSeconds ++ "s" }
  | .httpxTimeout name =>
      some
        { statusCode := 504, errorCode := "upstream_timeout"
          message := "upstream timeout before response headers: " ++ name }
  | .httpxRequest name =>
      some
        { statusCode := 502, errorCode := "upstream_request_error"
          message := "upstream request failed before response headers: " ++ name }
  | _ => none

variable (cfg : Config)

/-- One attempt of `open_upstream_with_retries`. -/
def openUpstream (x : Exchange) (attempt : ℕ) (log : List ClientEvent) :
    Attempt UpstreamOpenError HttpExc Unit × List ClientEvent :=
  match x.enter attempt with
  | .headers => (.done (), log ++ [.made attempt])
  | .raised e =>
      match headerError? cfg e with
      | some err =>
          match x.aclose attempt with
          | none => (.failed err, log ++ [.made attempt, .aclosed attempt])
          | some e' => (.raised e', log ++ [.made attempt, .aclosed attempt])
      | none => (.raised e, log ++ [.made attempt])

/-- `open_upstream_with_retries`, with what it raises: the client whose response
has come, and the record of the clients. -/
def openUpstreamWithRetries (x : Exchange) :
    Except (UpstreamOpenError ⊕ HttpExc) ℕ × List ClientEvent :=
  match run (openUpstream cfg x) cfg.settings.upstreamMaxAttempts 1 [] upstreamRequestFailed with
  | (.done (attempt, _), log) => (.ok attempt, log)
  | (.failed err, log) =>
      (.error (.inl { err with attempts := cfg.settings.upstreamMaxAttempts }), log)
  | (.raised e, log) => (.error (.inr e), log)

/-! ### Streaming and closing -/

/-- The `RuntimeError` that `close_upstream` ignores. -/
def exitRaised : Option HttpExc → Option HttpExc
  | some (.runtime text) =>
      if py "asynchronous generator is already running" <:+: text then none
      else some (.runtime text)
  | e => e

/-- `close_upstream`: what it does with the client, and what it raises. -/
def closeUpstream (x : Exchange) (client : ℕ) : List ClientEvent × Option HttpExc :=
  match x.responseAclose with
  | some e => ([], some e)
  | none => ([.aclosed client], (x.aclose client).or (exitRaised x.exit))

/-- The chunks of a started generator are written, from chunk `j` on, until one
cannot be written. `socks_mitm.py` skips empty chunks. -/
def writeChunks (front : FrontEnd) (x : Exchange) : ℕ → List (List UInt8) → Option HttpExc
  | _, [] => x.rest
  | j, chunk :: chunks =>
      match front, chunk with
      | .socks, [] => writeChunks front x (j + 1) chunks
      | _, _ =>
          match x.write j with
          | some e => some e
          | none => writeChunks front x (j + 1) chunks

/-- The response with the body `stream_upstream_body`: the head, the chunks, and
`close_upstream` in the `finally` of the generator, if it was started. -/
def writeStreamingResponse (front : FrontEnd) (x : Exchange) (client : ℕ) :
    List ClientEvent × Option HttpExc :=
  match x.head with
  | some e => ([], some e)
  | none =>
      let closing := closeUpstream x client
      (closing.1, ((writeChunks front x 0 x.chunks).or closing.2).or x.last)

/-- A request over plain HTTP: the record of its clients, and what it ends with,
if that is an exception. When no attempt succeeds, a fixed response is written. -/
def serveHttp (front : FrontEnd) (x : Exchange) : List ClientEvent × Option HttpExc :=
  match openUpstreamWithRetries cfg x with
  | (.ok client, log) =>
      let response := writeStreamingResponse front x client
      (log ++ response.1, response.2)
  | (.error (.inl _), log) => (log, x.head)
  | (.error (.inr e), log) => (log, some e)

/-! ### Who closes a client -/

/-- Every client that was made is closed. -/
def AllClosed (log : List ClientEvent) : Prop := ∀ i, .made i ∈ log → .aclosed i ∈ log

/-- The attempt fails with an exception that is caught, its client is closed, and
the next attempt may be made. -/
def Retried (x : Exchange) (i : ℕ) : Prop :=
  ∃ e err, x.enter i = .raised e ∧ headerError? cfg e = some err ∧ x.aclose i = none

/-- The attempt is made and is the last one, with headers or an exception. -/
structure Decides (x : Exchange) (i : ℕ) : Prop where
  pos : 1 ≤ i
  le : i ≤ cfg.settings.upstreamMaxAttempts
  before : ∀ j, 1 ≤ j → j < i → Retried cfg x j
  last : ¬Retried cfg x i

/-- Somebody closes the client of the last attempt: the clause that catches its
exception; or the generator, which is started, with a `close_upstream` that gets
as far as the client. -/
def ClosesLast (x : Exchange) (i : ℕ) : Prop :=
  match x.enter i with
  | .headers => x.head = none ∧ x.responseAclose = none
  | .raised e => (headerError? cfg e).isSome = true

variable {cfg} {x : Exchange}

lemma isFailed_openUpstream_iff (i : ℕ) (log : List ClientEvent) :
    (openUpstream cfg x i log).1.isFailed = true ↔ Retried cfg x i := by
  rw [openUpstream, Retried]
  split
  · rename_i henter
    simp [henter, Attempt.isFailed]
  · rename_i e henter
    split
    · rename_i err herr
      split
      · rename_i haclose
        simp [henter, herr, haclose, Attempt.isFailed]
      · rename_i e' haclose
        simp [henter, haclose, Attempt.isFailed]
    · rename_i herr
      simp [henter, herr, Attempt.isFailed]

/-- What an attempt comes to does not depend on the record. -/
lemma results_openUpstream (k i : ℕ) (log : List ClientEvent) :
    (results (openUpstream cfg x) k log i).isFailed = true ↔ Retried cfg x (k + i) := by
  induction i generalizing k log with
  | zero => exact isFailed_openUpstream_iff k log
  | succ i ih =>
      rw [results, ih, Nat.add_right_comm, Nat.add_assoc]

/-- The record of clients that were made and closed one after the other. -/
def closedClients (k n : ℕ) : List ClientEvent :=
  (List.range n).flatMap fun j => [.made (k + j), .aclosed (k + j)]

lemma closedClients_succ (k n : ℕ) :
    closedClients k (n + 1) = [.made k, .aclosed k] ++ closedClients (k + 1) n := by
  rw [closedClients, List.range_succ_eq_map, List.flatMap_cons, List.flatMap_map]
  simp [closedClients, Nat.add_assoc, Nat.add_comm 1]

/-- **The attempts that are tried again leave nothing open.** -/
theorem states_openUpstream {k n : ℕ} (h : ∀ j < n, Retried cfg x (k + j))
    (log : List ClientEvent) :
    states (openUpstream cfg x) k log n = log ++ closedClients k n := by
  induction n generalizing k log with
  | zero => simp [states, closedClients]
  | succ n ih =>
      obtain ⟨e, err, henter, herr, haclose⟩ := h 0 (Nat.succ_pos n)
      have hstep : (openUpstream cfg x k log).2 = log ++ [.made k, .aclosed k] := by
        rw [Nat.add_zero] at henter haclose
        simp [openUpstream, henter, herr, haclose]
      have hrest : ∀ j < n, Retried cfg x (k + 1 + j) := fun j hj => by
        rw [Nat.add_right_comm, Nat.add_assoc]
        exact h (j + 1) (Nat.succ_lt_succ hj)
      rw [states, ih hrest, hstep, closedClients_succ, List.append_assoc]

lemma mem_closedClients {k n : ℕ} {c : ℕ} :
    (.made c ∈ closedClients k n ↔ k ≤ c ∧ c < k + n) ∧
      (.aclosed c ∈ closedClients k n ↔ k ≤ c ∧ c < k + n) := by
  have hrange : (∃ j < n, c = k + j) ↔ k ≤ c ∧ c < k + n := by
    constructor
    · rintro ⟨j, hj, rfl⟩
      omega
    · rintro ⟨hle, hlt⟩
      exact ⟨c - k, by omega, by omega⟩
  rw [← hrange]
  simp [closedClients]

lemma allClosed_closedClients (k n : ℕ) : AllClosed (closedClients k n) :=
  fun _ hc => mem_closedClients.2.mpr (mem_closedClients.1.mp hc)

/-- After closed clients, one more is closed or not. -/
lemma allClosed_append_iff {n : ℕ} {events : List ClientEvent}
    (hevents : ∀ e ∈ events, e = .aclosed (1 + n)) :
    AllClosed (closedClients 1 n ++ .made (1 + n) :: events) ↔ events ≠ [] := by
  constructor
  · rintro h rfl
    have hclosed := h (1 + n) (by simp)
    rcases List.mem_append.mp hclosed with hclosed | hclosed
    · have hlt := (mem_closedClients.2.mp hclosed).2
      omega
    · exact absurd hclosed (by simp)
  · intro hne c hc
    rcases List.mem_append.mp hc with hc | hc
    · exact List.mem_append_left _ (allClosed_closedClients 1 n c hc)
    · obtain ⟨e, he⟩ := List.exists_mem_of_ne_nil events hne
      rcases List.mem_cons.mp hc with hc | hc
      · obtain rfl := ClientEvent.made.inj hc
        refine List.mem_append_right _ (List.mem_cons_of_mem _ ?_)
        exact hevents e he ▸ he
      · exact absurd (hevents _ hc) (by simp)

/-- The generator is started and closes the client, or it does not. -/
lemma mem_writeStreamingResponse {front : FrontEnd} {client : ℕ} {e : ClientEvent}
    (he : e ∈ (writeStreamingResponse front x client).1) : e = .aclosed client := by
  rw [writeStreamingResponse] at he
  split at he
  · exact absurd he List.not_mem_nil
  · dsimp only at he
    rw [closeUpstream] at he
    split at he
    · exact absurd he List.not_mem_nil
    · exact List.mem_singleton.mp he

lemma writeStreamingResponse_ne_nil_iff (front : FrontEnd) (client : ℕ) :
    (writeStreamingResponse front x client).1 ≠ [] ↔ x.head = none ∧ x.responseAclose = none := by
  rw [writeStreamingResponse]
  split
  · rename_i e hhead
    simp [hhead]
  · rename_i hhead
    dsimp only
    rw [closeUpstream]
    split
    · rename_i e hclose
      simp [hclose]
    · rename_i hclose
      simp [hhead, hclose]

/-- The record of a request whose attempts are all tried again. -/
lemma serveHttp_of_retried (front : FrontEnd)
    (h : ∀ j < cfg.settings.upstreamMaxAttempts, Retried cfg x (1 + j)) :
    (serveHttp cfg front x).1 = closedClients 1 cfg.settings.upstreamMaxAttempts := by
  obtain ⟨hfailed, hlog⟩ := run_of_forall cfg.settings.upstreamMaxAttempts 1 []
    upstreamRequestFailed fun j hj => (@results_openUpstream cfg x 1 j []).mpr (h j hj)
  rw [states_openUpstream h, List.nil_append] at hlog
  rw [serveHttp, openUpstreamWithRetries]
  cases hrun : run (openUpstream cfg x) cfg.settings.upstreamMaxAttempts 1 []
      upstreamRequestFailed with
  | mk outcome log =>
      rw [hrun] at hfailed hlog
      cases outcome with
      | failed err => exact hlog
      | _ => exact absurd hfailed Bool.false_ne_true

/-- The record of a request with an attempt that decides. -/
lemma serveHttp_of_first (front : FrontEnd) {i : ℕ} (hi : i < cfg.settings.upstreamMaxAttempts)
    (h : ∀ j < i, Retried cfg x (1 + j)) (hlast : ¬Retried cfg x (1 + i)) :
    ∃ events, (serveHttp cfg front x).1 = closedClients 1 i ++ .made (1 + i) :: events ∧
      (∀ e ∈ events, e = .aclosed (1 + i)) ∧ (events ≠ [] ↔ ClosesLast cfg x (1 + i)) := by
  have hrun := run_of_first hi 1 [] upstreamRequestFailed
    (by rw [← Bool.not_eq_true, @results_openUpstream cfg x 1 i []]; exact hlast)
    fun j hj => (@results_openUpstream cfg x 1 j []).mpr (h j hj)
  have hstep := @step_states _ _ _ _ (openUpstream cfg x) 1 [] i
  rw [states_openUpstream h, List.nil_append] at hstep
  rw [serveHttp, openUpstreamWithRetries, hrun]
  cases henter : x.enter (1 + i) with
  | headers =>
      -- the response is streamed, and its client closed if the stream ends so
      have hopen : openUpstream cfg x (1 + i) (closedClients 1 i)
          = (.done (), closedClients 1 i ++ [.made (1 + i)]) := by
        simp [openUpstream, henter]
      obtain ⟨hresult, hlog⟩ := Prod.mk.inj (hstep.symm.trans hopen)
      rw [hresult, hlog]
      refine ⟨(writeStreamingResponse front x (1 + i)).1, ?_,
        fun e he => mem_writeStreamingResponse he, ?_⟩
      · simp [Attempt.numbered]
      · simpa [ClosesLast, henter] using writeStreamingResponse_ne_nil_iff front (1 + i)
  | raised e =>
      cases herr : headerError? cfg e with
      | none =>
          -- an exception that is not caught: no client is closed
          have hopen : openUpstream cfg x (1 + i) (closedClients 1 i)
              = (.raised e, closedClients 1 i ++ [.made (1 + i)]) := by
            simp [openUpstream, henter, herr]
          obtain ⟨hresult, hlog⟩ := Prod.mk.inj (hstep.symm.trans hopen)
          rw [hresult, hlog]
          exact ⟨[], rfl, by simp, by simp [ClosesLast, henter, herr]⟩
      | some err =>
          cases haclose : x.aclose (1 + i) with
          | none => exact absurd ⟨e, err, henter, herr, haclose⟩ hlast
          | some e' =>
              -- the closing of the client raises, which ends the call
              have hopen : openUpstream cfg x (1 + i) (closedClients 1 i)
                  = (.raised e', closedClients 1 i ++ [.made (1 + i), .aclosed (1 + i)]) := by
                simp [openUpstream, henter, herr, haclose]
              obtain ⟨hresult, hlog⟩ := Prod.mk.inj (hstep.symm.trans hopen)
              rw [hresult, hlog]
              exact ⟨[.aclosed (1 + i)], rfl, by simp, by simp [ClosesLast, henter, herr]⟩

/-- There is one attempt that decides. -/
lemma Decides.unique {i j : ℕ} (hi : Decides cfg x i) (hj : Decides cfg x j) : i = j :=
  @first_unique (fun k => 1 ≤ k → Retried cfg x k) i j (fun h => hi.last (h hi.pos))
    (fun k hk hpos => hi.before k hpos hk) (fun h => hj.last (h hj.pos))
    (fun k hk hpos => hj.before k hpos hk)

/-- **Every client is closed** in the end if and only if somebody closes the
client of the attempt that decides. -/
theorem allClosed_iff (front : FrontEnd) : AllClosed (serveHttp cfg front x).1 ↔
    ∀ i, Decides cfg x i → ClosesLast cfg x i := by
  rcases forall_failed_or_first (results (openUpstream cfg x) 1 [])
    cfg.settings.upstreamMaxAttempts with hall | ⟨i, hi, hstop, hfailed⟩
  · have hretried : ∀ j < cfg.settings.upstreamMaxAttempts, Retried cfg x (1 + j) :=
      fun j hj => (results_openUpstream 1 j []).mp (hall j hj)
    rw [serveHttp_of_retried front hretried]
    refine ⟨fun _ i hdec => absurd ?_ hdec.last, fun _ => allClosed_closedClients 1 _⟩
    have hpos := hdec.pos
    have hle := hdec.le
    have hagain := hretried (i - 1) (by omega)
    rwa [Nat.add_sub_cancel' hpos] at hagain
  · have hretried : ∀ j < i, Retried cfg x (1 + j) :=
      fun j hj => (results_openUpstream 1 j []).mp (hfailed j hj)
    have hlast : ¬Retried cfg x (1 + i) := fun h => by
      rw [← results_openUpstream 1 i [], hstop] at h
      exact Bool.noConfusion h
    obtain ⟨events, hlog, hevents, hne⟩ := serveHttp_of_first front hi hretried hlast
    have hdecides : Decides cfg x (1 + i) := by
      refine ⟨Nat.le_add_right 1 i, by omega, fun j hpos hlt => ?_, hlast⟩
      have hagain := hretried (j - 1) (by omega)
      rwa [Nat.add_sub_cancel' hpos] at hagain
    rw [hlog, allClosed_append_iff hevents, hne]
    exact ⟨fun h j hj => hdecides.unique hj ▸ h, fun h => h _ hdecides⟩

/-- The URL is invalid. -/
def invalidUrl : Exchange where
  enter := fun _ => .raised (.other "InvalidURL")
  aclose := fun _ => none
  head := none
  chunks := []
  rest := none
  write := fun _ => none
  last := none
  responseAclose := none
  exit := none

/-- **A client leaks** when the stream context raises what no clause catches. -/
theorem not_allClosed_invalidUrl :
    ¬AllClosed (serveHttp sampleConfig .socks invalidUrl).1 := by
  intro h
  have hmade : ClientEvent.made 1 ∈ (serveHttp sampleConfig .socks invalidUrl).1 := by
    decide +kernel
  have hopen : ClientEvent.aclosed 1 ∉ (serveHttp sampleConfig .socks invalidUrl).1 := by
    decide +kernel
  exact hopen (h 1 hmade)

end CodexResetProxy
