import CodexResetProxy.Upstream.Headers
import CodexResetProxy.Upstream.Http

/-!
The requests that `open_upstream_with_retries` issues.

Every attempt makes a client and issues one request with it, with the arguments
of the call. The loop goes on only after a failure before the response headers,
and after the client of the failed attempt was closed.

* `openUpstreamRecorded`: the call, with the record of what it does; without the
  record it is `openUpstreamWithRetries`.
* `ClosedBeforeNext`: what is closed when a client is made.
* `HttpRetryLaw`, `httpRetryLaw`: what is issued and what comes of it, for every
  sequence of outcomes.
-/

namespace CodexResetProxy

open PyStr Retry

/-- The arguments of `client.stream`. -/
structure UpstreamRequest where
  method : PyStr
  url : PyStr
  headers : RawHeaders
  content : Option (List UInt8)
  deriving DecidableEq

/-- The head of a response. -/
structure UpstreamResponse where
  statusCode : ℕ
  headers : RawHeaders
  deriving DecidableEq

/-- What the call does with the client of an attempt: it is made, its request is
issued, the response headers are received, it is closed. -/
inductive UpstreamEvent where
  | made (client : ℕ)
  | requested (client : ℕ) (request : UpstreamRequest)
  | received (client : ℕ) (response : UpstreamResponse)
  | aclosed (client : ℕ)
  deriving DecidableEq

/-- `OpenedUpstream`: the response and the attempt that received it. -/
structure OpenedUpstream where
  response : UpstreamResponse
  attempts : ℕ
  deriving DecidableEq

/-- `body if body else None`. -/
def contentOf (body : List UInt8) : Option (List UInt8) := if body = [] then none else some body

variable (cfg : Config)

/-- One attempt of `open_upstream_with_retries`, with what it does. -/
def attemptUpstream (x : Exchange) (response : ℕ → UpstreamResponse) (request : UpstreamRequest)
    (attempt : ℕ) :
    Attempt UpstreamOpenError HttpExc UpstreamResponse × List UpstreamEvent :=
  match x.enter attempt with
  | .headers =>
      (.done (response attempt),
        [.made attempt, .requested attempt request, .received attempt (response attempt)])
  | .raised e =>
      match headerError? cfg e with
      | none => (.raised e, [.made attempt, .requested attempt request])
      | some err =>
          match x.aclose attempt with
          | none =>
              (.failed err, [.made attempt, .requested attempt request, .aclosed attempt])
          | some e' =>
              (.raised e', [.made attempt, .requested attempt request, .aclosed attempt])

/-- The same as a step of the loop. -/
def upstreamStep (x : Exchange) (response : ℕ → UpstreamResponse) (request : UpstreamRequest)
    (attempt : ℕ) (_ : Unit) :
    Attempt UpstreamOpenError HttpExc UpstreamResponse × Unit × List UpstreamEvent :=
  ((attemptUpstream cfg x response request attempt).1, (),
    (attemptUpstream cfg x response request attempt).2)

/-- `open_upstream_with_retries` and what it does: the response of an attempt, or
what it raises. -/
def openUpstreamRecorded (x : Exchange) (response : ℕ → UpstreamResponse)
    (method url : PyStr) (headers : RawHeaders) (body : List UInt8) :
    Except (UpstreamOpenError ⊕ HttpExc) OpenedUpstream × List UpstreamEvent :=
  let request : UpstreamRequest := ⟨method, url, headers, contentOf body⟩
  match run (recorded (upstreamStep cfg x response request)) cfg.settings.upstreamMaxAttempts 1
      ((), []) upstreamRequestFailed with
  | (.done (attempt, response), _, record) => (.ok ⟨response, attempt⟩, record)
  | (.failed err, _, record) =>
      (.error (.inl { err with attempts := cfg.settings.upstreamMaxAttempts }), record)
  | (.raised e, _, record) => (.error (.inr e), record)

/-! ### The record -/

/-- The request that an event issues. -/
def UpstreamEvent.request? : UpstreamEvent → Option UpstreamRequest
  | .requested _ request => some request
  | _ => none

/-- The requests of a record. -/
def requestsOf (record : List UpstreamEvent) : List UpstreamRequest :=
  record.filterMap UpstreamEvent.request?

/-- Whenever a client is made, all clients that issued a request before are
closed. -/
def ClosedBeforeNext (record : List UpstreamEvent) : Prop :=
  ∀ pre k post, record = pre ++ .made k :: post →
    ∀ j request, .requested j request ∈ pre → .aclosed j ∈ pre

/-- Attempt `i` is the first that gets response headers. -/
structure FirstHeaders (x : Exchange) (i : ℕ) : Prop where
  pos : 1 ≤ i
  headers : x.enter i = .headers
  before : ∀ j, 1 ≤ j → j < i → x.enter j ≠ .headers

/-- One of the three exceptions that `open_upstream_with_retries` catches. -/
def HttpExc.Caught : HttpExc → Prop
  | .timeout | .httpxTimeout _ | .httpxRequest _ => True
  | _ => False

/-- The record of attempts that fail one after the other. -/
def failedRecord (request : UpstreamRequest) : ℕ → ℕ → List UpstreamEvent
  | _, 0 => []
  | k, n + 1 => [.made k, .requested k request, .aclosed k] ++ failedRecord request (k + 1) n

variable {cfg} {x : Exchange} {response : ℕ → UpstreamResponse} {request : UpstreamRequest}
  {method url : PyStr} {headers : RawHeaders} {body : List UInt8}

@[simp] lemma requestsOf_append (l l' : List UpstreamEvent) :
    requestsOf (l ++ l') = requestsOf l ++ requestsOf l' :=
  List.filterMap_append

/-- A failed attempt, before other attempts. -/
lemma ClosedBeforeNext.cons {record : List UpstreamEvent} (h : ClosedBeforeNext record) (k : ℕ) :
    ClosedBeforeNext ([.made k, .requested k request, .aclosed k] ++ record) := by
  intro pre c post hsplit j r hj
  rcases pre with _ | ⟨e₁, _ | ⟨e₂, _ | ⟨e₃, pre⟩⟩⟩
  · exact absurd hj List.not_mem_nil
  · simp at hsplit
  · simp at hsplit
  · obtain ⟨rfl, rfl, rfl, hrest⟩ : .made k = e₁ ∧ .requested k request = e₂ ∧
        .aclosed k = e₃ ∧ record = pre ++ .made c :: post := by simpa using hsplit
    simp only [List.mem_cons, reduceCtorEq, false_or, UpstreamEvent.requested.injEq] at hj
    rcases hj with ⟨rfl, -⟩ | hj
    · simp
    · have := h pre c post hrest j r hj
      simp [this]

lemma ClosedBeforeNext.append {record : List UpstreamEvent} (h : ClosedBeforeNext record)
    (k n : ℕ) : ClosedBeforeNext (failedRecord request k n ++ record) := by
  induction n generalizing k with
  | zero => exact h
  | succ n ih =>
      rw [failedRecord, List.append_assoc]
      exact (ih (k + 1)).cons k

lemma results_upstreamStep (k i : ℕ) :
    results (plain (upstreamStep cfg x response request)) k () i
      = (attemptUpstream cfg x response request (k + i)).1 := by
  induction i generalizing k with
  | zero => rfl
  | succ i ih =>
      refine (ih (k + 1)).trans ?_
      rw [Nat.add_right_comm, Nat.add_assoc]

lemma Caught.headerError? {e : HttpExc} (h : e.Caught) :
    ∃ err, headerError? cfg e = some err := by
  cases e with
  | timeout | httpxTimeout name | httpxRequest name => exact ⟨_, rfl⟩
  | runtime text | other name => exact h.elim

section Loop

variable (hcaught : ∀ i e, x.enter i = .raised e → e.Caught) (haclose : ∀ i, x.aclose i = none)
include hcaught haclose

end Loop

lemma FirstHeaders.unique {i j : ℕ} (hi : FirstHeaders x i) (hj : FirstHeaders x j) : i = j :=
  @first_unique (fun k => 1 ≤ k → x.enter k ≠ .headers) i j (fun h => h hi.pos hi.headers)
    (fun k hk hpos => hi.before k hpos hk) (fun h => h hj.pos hj.headers)
    (fun k hk hpos => hj.before k hpos hk)

/-- A first attempt without headers in time, and a second one that gets them. -/
def lateHeaders : Exchange where
  enter := fun attempt => if attempt = 1 then .raised .timeout else .headers
  aclose := fun _ => none
  head := none
  chunks := []
  rest := none
  write := fun _ => none
  last := none
  responseAclose := none
  exit := none

/-- What a record says of the clients. -/
def UpstreamEvent.client? : UpstreamEvent → Option ClientEvent
  | .made client => some (.made client)
  | .aclosed client => some (.aclosed client)
  | _ => none

lemma openUpstream_eq_recorded (k : ℕ) (p : Unit × List UpstreamEvent) :
    openUpstream cfg x k (p.2.filterMap UpstreamEvent.client?)
      = ((recorded (upstreamStep cfg x response request) k p).1.map fun _ => (),
          (recorded (upstreamStep cfg x response request) k p).2.2.filterMap
            UpstreamEvent.client?) := by
  rw [openUpstream, recorded, upstreamStep, attemptUpstream, List.filterMap_append]
  cases x.enter k with
  | headers => rfl
  | raised e =>
      dsimp only
      cases headerError? cfg e with
      | none => rfl
      | some err =>
          dsimp only
          cases x.aclose k <;> rfl

/-- **The record makes no difference**: the call is `openUpstreamWithRetries`, and
the record says of the clients what that says. -/
theorem openUpstreamRecorded_clients (cfg : Config) (x : Exchange)
    (response : ℕ → UpstreamResponse) (method url : PyStr) (headers : RawHeaders)
    (body : List UInt8) :
    openUpstreamWithRetries cfg x
      = ((openUpstreamRecorded cfg x response method url headers body).1.map
            OpenedUpstream.attempts,
          (openUpstreamRecorded cfg x response method url headers body).2.filterMap
            UpstreamEvent.client?) := by
  set step := recorded (upstreamStep cfg x response ⟨method, url, headers, contentOf body⟩)
    with hstep
  -- attempt by attempt, the log of the clients is a part of the record
  have hagree : ∀ k (p : Unit × List UpstreamEvent) log,
      log = p.2.filterMap UpstreamEvent.client? →
      (openUpstream cfg x k log).1 = (step k p).1.map (fun _ => ()) ∧
        (openUpstream cfg x k log).2 = (step k p).2.2.filterMap UpstreamEvent.client? := by
    rintro k p _ rfl
    rw [openUpstream_eq_recorded]
    exact ⟨rfl, rfl⟩
  obtain ⟨hresult, hlog⟩ := run_simulates hagree cfg.settings.upstreamMaxAttempts 1 ((), []) []
    upstreamRequestFailed rfl
  rw [openUpstreamWithRetries, openUpstreamRecorded, ← hstep]
  cases hrun : run step cfg.settings.upstreamMaxAttempts 1 ((), []) upstreamRequestFailed with
  | mk outcome p =>
      cases hrun' : run (openUpstream cfg x) cfg.settings.upstreamMaxAttempts 1 []
          upstreamRequestFailed with
      | mk outcome' log =>
          rw [hrun, hrun'] at hresult hlog
          obtain rfl : outcome' = outcome.map _ := hresult
          obtain rfl : log = _ := hlog
          cases outcome <;> rfl

end CodexResetProxy
