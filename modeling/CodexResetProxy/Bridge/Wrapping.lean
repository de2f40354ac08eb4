import CodexResetProxy.Bridge.Attempts
import CodexResetProxy.Library.JsonEncode

/-!
The frame that a request body is wrapped in, as RFC 8259 has it.

* `sendWebsocketJson`: the text of the frame.
* `WrapsRequest`: a JSON object is sent as one, and every other body is rejected before
  anything is opened.
* `Wrappable`: no limit of the decoder or encoder is hit, and no number is outside the
  grammar or the range of binary64.
* `wrapsRequest_iff`: **just the bodies** that are wrapped.
-/

namespace CodexResetProxy

open PyStr Json Rfc8259 Retry

/-- `_send_websocket_json`: the text that is sent, or what `json.dumps` raises. -/
def sendWebsocketJson (depth : ℕ) (payload : List (PyStr × Json)) : Except Raised PyStr :=
  match dumps depth (.obj payload) with
  | .ok text => .ok text
  | .error .recursion => .error (.exc (.other "RecursionError"))
  | .error _ => .error (.exc (.other "ValueError"))

/-- The members of the frame for an object. -/
def wrapped (members : List (PyStr × Value)) : List (PyStr × Value) :=
  (py "type", .string (py "response.create")) :: members.without (py "type")

/-- A body is the UTF-8 text of a JSON object. -/
def IsObject (body : ByteArray) (members : List (PyStr × Value)) : Prop :=
  ∃ text, decodeUtf8 body = some text ∧ IsJson text (.object members)

/-- What the wrapping of a body guarantees, with the limits of the decoder and the
encoder. -/
structure WrapsRequest (depth encodeDepth : ℕ) (body : ByteArray) : Prop where
  object : ∀ members, IsObject body members →
    ∃ frame, buildResponseCreateRequest depth body >>= sendWebsocketJson encodeDepth = .ok frame ∧
      IsJson frame (.object (wrapped members))
  other : (∀ members, ¬IsObject body members) →
    ∃ e, buildResponseCreateRequest depth body = .error (.bridge e) ∧ e.statusCode = 400 ∧
      ∀ (cfg : Config) (x : Course) (r : Request) (pool : Option Pool),
        cfg.runtime.depth = depth → r.body = body →
        (openBridgeRecorded cfg x r pool).2 = (⟨pool.getD .empty, 0⟩, []) ∧
          (1 ≤ cfg.settings.upstreamMaxAttempts →
            (openBridgeRecorded cfg x r pool).1 = .error (.bridge { e with attempts := 1 }))

/-- A body without what the decoder and the encoder do otherwise than RFC 8259: a limit
that is hit before an error, a literal such as `NaN`, or, among the members that are kept,
a decimal out of the range of binary64 or containers too deep in each other. -/
def Wrappable (depth encodeDepth : ℕ) (body : ByteArray) : Prop :=
  ∀ text, decodeUtf8 body = some text →
    ¬Exceeds depth (skipSpace text) ∧
      ∀ members, IsText PyNumber text (.object members) →
        IsJson text (.object members) ∧
          Bounded Finite encodeDepth (.object (members.without (py "type")))

/-! ### What the wrapping does -/

section Build

variable {depth encodeDepth : ℕ} {body : ByteArray} {text : PyStr}

lemma valid_of_decodeUtf8 (h : decodeUtf8 body = some text) : Valid text := by
  obtain ⟨s, -, rfl⟩ := Option.map_eq_some_iff.mp h
  intro c hc
  obtain ⟨x, -, rfl⟩ := List.mem_map.mp hc
  exact x.valid

/-- An object is wrapped. -/
lemma buildResponseCreateRequest_of_obj {members : List (PyStr × Json)}
    (htext : decodeUtf8 body = some text) (hload : loads depth text = .ok (.obj members)) :
    buildResponseCreateRequest depth body
      = .ok ((py "type", .str (py "response.create")) :: members.without (py "type")) := by
  rw [buildResponseCreateRequest, htext]
  dsimp only
  rw [hload]

/-- What is wrapped is an object. -/
lemma exists_obj_of_build {payload : List (PyStr × Json)}
    (h : buildResponseCreateRequest depth body = .ok payload) :
    ∃ text members, decodeUtf8 body = some text ∧ loads depth text = .ok (.obj members) ∧
      payload = (py "type", .str (py "response.create")) :: members.without (py "type") := by
  rw [buildResponseCreateRequest] at h
  split at h
  · simp at h
  rename_i text htext
  split at h
  · simp at h
  · simp at h
  · simp at h
  · rename_i members hload
    exact ⟨text, members, htext, hload, (Except.ok.inj h).symm⟩
  · simp at h

/-- A text is rejected where the decoder finds an error or no object. -/
lemma exists_rejected_iff (htext : decodeUtf8 body = some text) :
    (∃ e, buildResponseCreateRequest depth body = .error (.bridge e)) ↔
      ¬Limit (loads depth text) ∧ ∀ members, loads depth text ≠ .ok (.obj members) := by
  rw [buildResponseCreateRequest, htext]
  dsimp only
  cases hload : loads depth text with
  | error e => cases e <;> simp [Limit]
  | ok j => cases j <;> simp [Limit]

/-- A call with a body that is rejected touches nothing. -/
lemma untouched_of_rejected {cfg : Config} {x : Course} {r : Request} {pool : Option Pool}
    {e : BridgeError}
    (h : buildResponseCreateRequest cfg.runtime.depth r.body = .error (.bridge e)) :
    (openBridgeRecorded cfg x r pool).2 = (⟨pool.getD .empty, 0⟩, []) ∧
      (1 ≤ cfg.settings.upstreamMaxAttempts →
        (openBridgeRecorded cfg x r pool).1 = .error (.bridge { e with attempts := 1 })) := by
  by_cases hpos : 1 ≤ cfg.settings.upstreamMaxAttempts
  · rw [openBridgeRecorded_of_rejected hpos h]
    exact ⟨rfl, fun _ => rfl⟩
  · refine ⟨?_, fun hpos' => absurd hpos' hpos⟩
    have hzero : cfg.settings.upstreamMaxAttempts = 0 := by omega
    rw [openBridgeRecorded, hzero, run]

/-- The value of the frame for an object. -/
lemma value_payload (members : List (PyStr × Json)) :
    (Json.obj ((py "type", .str (py "response.create")) :: members.without (py "type"))).value
      = .object (wrapped (members.map memberValue)) := by
  have hwithout : (members.map memberValue).without (py "type")
      = (members.without (py "type")).map memberValue := by
    rw [List.without, List.filter_map]
    rfl
  rw [value, valueWith, wrapped, hwithout, List.map_cons, valueWith]
  rfl

lemma value_obj (members : List (PyStr × Json)) :
    (Json.obj members).value = .object (members.map memberValue) := by
  rw [value, valueWith]
  rfl

/-- The type of the frame is of no account to its bounds. -/
lemma bounded_wrapped_iff {Ok : Number → Prop} {d : ℕ} {members : List (PyStr × Value)} :
    Bounded Ok d (.object (wrapped members)) ↔
      Bounded Ok d (.object (members.without (py "type"))) := by
  cases d with
  | zero => exact Iff.rfl
  | succ d =>
      have htype : Joined (py "type") ∧ Bounded Ok d (.string (py "response.create")) := by
        have hvalue : Joined (py "response.create") := joined_of_lt (by decide)
        exact ⟨joined_of_lt (by decide), by cases d <;> exact hvalue⟩
      have hname : py "type" ∉ (members.without (py "type")).map Prod.fst := by
        intro h
        obtain ⟨p, hp, heq⟩ := List.mem_map.mp h
        exact (List.mem_without.mp hp).2 heq
      rw [Bounded, Bounded, wrapped, List.map_cons, List.nodup_cons, List.forall_mem_cons]
      exact ⟨fun h => ⟨h.1.2, h.2.2⟩, fun h => ⟨⟨hname, h.1⟩, htype, h.2⟩⟩

lemma bounded_without {Ok : Number → Prop} {d : ℕ} {members : List (PyStr × Value)} {k : PyStr}
    (h : Bounded Ok d (.object members)) : Bounded Ok d (.object (members.without k)) := by
  cases d with
  | zero => exact absurd h id
  | succ d =>
      exact ⟨List.nodup_without h.1, fun p hp => h.2 p (List.mem_without.mp hp).1⟩

/-- The frame for an object is JSON just if what is kept can be written as it is. -/
lemma exists_frame_iff {members : List (PyStr × Json)} (htext : decodeUtf8 body = some text)
    (hload : loads depth text = .ok (.obj members)) :
    (∃ frame, buildResponseCreateRequest depth body >>= sendWebsocketJson encodeDepth = .ok frame ∧
        IsJson frame (.object (wrapped (members.map memberValue)))) ↔
      Bounded Finite encodeDepth (.object ((members.map memberValue).without (py "type"))) := by
  have hdecoded : ∃ d, Bounded Decoded d (.object (wrapped (members.map memberValue))) := by
    obtain ⟨d, a, u, b, -, -, hu, -⟩ := loads_sound hload (valid_of_decodeUtf8 htext)
    have hbounded : Bounded Decoded d (Json.obj members).value := hu.bounded fun t n hn => ⟨t, hn⟩
    rw [value_obj] at hbounded
    exact ⟨d, bounded_wrapped_iff.mpr (bounded_without hbounded)⟩
  obtain ⟨d, hdecoded⟩ := hdecoded
  rw [← value_payload] at hdecoded
  rw [← bounded_wrapped_iff, ← value_payload, ← isJson_dumps_iff hdecoded,
    buildResponseCreateRequest_of_obj htext hload]
  refine exists_congr fun frame => and_congr_left fun _ => ?_
  show sendWebsocketJson encodeDepth _ = .ok frame ↔ _
  rw [sendWebsocketJson]
  split <;> simp [*]

end Build

/-! ### The condition -/

/-- The members of an object, of the value that is decoded. -/
lemma isText_members {depth : ℕ} {text : PyStr} {j : Json} {members : List (PyStr × Value)}
    (hload : loads depth text = .ok j) (hvalid : Valid text)
    (h : IsText PyNumber text (.object members)) :
    ∃ ms, j = .obj ms ∧ members = ms.map memberValue := by
  have heq := isText_unique h (loads_sound hload hvalid)
  cases j with
  | obj ms =>
      rw [value_obj] at heq
      exact ⟨ms, rfl, Value.object.inj heq⟩
  | _ =>
      rw [value, valueWith] at heq
      cases heq

/-- A body that is wrapped, or rejected, as it should be. -/
lemma wrappable_of_wrapsRequest {depth encodeDepth : ℕ} {body : ByteArray}
    (h : WrapsRequest depth encodeDepth body) : Wrappable depth encodeDepth body := by
  intro text htext
  have hvalid := valid_of_decodeUtf8 htext
  rw [← limit_loads_iff hvalid]
  by_cases hobject : ∃ members, IsObject body members
  · obtain ⟨members, text', htext', hjson⟩ := hobject
    obtain rfl : text = text' := Option.some.inj (htext.symm.trans htext')
    obtain ⟨frame, hframe, hisjson⟩ := h.object members ⟨text, htext, hjson⟩
    obtain ⟨payload, hbuild, -⟩ := bind_eq_ok.mp hframe
    obtain ⟨text', ms, htext', hload, -⟩ := exists_obj_of_build hbuild
    obtain rfl : text = text' := Option.some.inj (htext.symm.trans htext')
    obtain ⟨ms', heq, rfl⟩ := isText_members hload hvalid (hjson.mono fun _ _ => .number)
    obtain rfl := Json.obj.inj heq
    refine ⟨by rw [hload]; exact not_limit_ok _, fun members' htext' => ?_⟩
    obtain ⟨ms', heq, rfl⟩ := isText_members hload hvalid htext'
    obtain rfl := Json.obj.inj heq
    exact ⟨hjson, (exists_frame_iff htext hload).mp ⟨frame, hframe, hisjson⟩⟩
  · obtain ⟨e, hbuild, -⟩ := h.other (not_exists.mp hobject)
    obtain ⟨hlimit, hno⟩ := (exists_rejected_iff htext).mp ⟨e, hbuild⟩
    refine ⟨hlimit, fun members hmembers => ?_⟩
    rcases loads_complete (fun _ _ hn => hn) hmembers (d := depth) with ⟨j, hload, -⟩ | hlimit'
    · obtain ⟨ms, rfl, -⟩ := isText_members hload hvalid hmembers
      exact absurd hload (hno ms)
    · exact absurd hlimit' hlimit

/-- A body without what the decoder and the encoder do otherwise. -/
lemma wrapsRequest_of_wrappable {depth encodeDepth : ℕ} {body : ByteArray}
    (h : Wrappable depth encodeDepth body) : WrapsRequest depth encodeDepth body := by
  refine ⟨?_, fun hother => ?_⟩
  · rintro members ⟨text, htext, hjson⟩
    have hvalid := valid_of_decodeUtf8 htext
    obtain ⟨hlimit, hmembers⟩ := h text htext
    rw [← limit_loads_iff hvalid] at hlimit
    have hpy : IsText PyNumber text (.object members) := hjson.mono fun _ _ => .number
    obtain ⟨j, hload, -⟩ := (loads_complete (fun _ _ hn => hn) hpy).resolve_right hlimit
    obtain ⟨ms, rfl, rfl⟩ := isText_members hload hvalid hpy
    exact (exists_frame_iff htext hload).mpr (hmembers _ hpy).2
  · have hrejected : ∃ e, buildResponseCreateRequest depth body = .error (.bridge e) := by
      cases htext : decodeUtf8 body with
      | none => exact ⟨_, by rw [buildResponseCreateRequest, htext]⟩
      | some text =>
          have hvalid := valid_of_decodeUtf8 htext
          obtain ⟨hlimit, hmembers⟩ := h text htext
          rw [← limit_loads_iff hvalid] at hlimit
          refine (exists_rejected_iff htext).mpr ⟨hlimit, fun ms hload => ?_⟩
          have hsound := (loads_sound hload hvalid).mono fun _ _ hn => hn.1
          rw [value_obj] at hsound
          exact hother _ ⟨text, htext, (hmembers _ hsound).1⟩
    obtain ⟨e, hbuild⟩ := hrejected
    refine ⟨e, hbuild, statusCode_of_rejected hbuild, fun cfg x r pool hdepth hbody => ?_⟩
    exact untouched_of_rejected (by rw [hdepth, hbody, hbuild])

/-- **Just the bodies** without a literal such as `NaN`, a number out of range or a limit
that is hit are wrapped, or rejected, as they should be. -/
theorem wrapsRequest_iff (depth encodeDepth : ℕ) (body : ByteArray) :
    WrapsRequest depth encodeDepth body ↔ Wrappable depth encodeDepth body :=
  ⟨wrappable_of_wrapsRequest, wrapsRequest_of_wrappable⟩

/-- A text that the decoder reads and RFC 8259 does not have. -/
lemma isText_nan :
    IsText PyNumber (py "\x7b\"a\":NaN\x7d")
      (.object [(py "a", .number (.literal (py "NaN")))]) := by
  have hws : IsWs [] := fun _ hc => absurd hc List.not_mem_nil
  have hname : IsString (py "\"a\"") (py "a") := by
    refine ⟨py "a", by decide, ?_⟩
    exact .unescaped (by decide) (by decide) (by decide) (by decide) .nil
  have hmember : IsMember (IsValue PyNumber 0) (py "\"a\":NaN")
      (py "a", .number (.literal (py "NaN"))) :=
    ⟨py "\"a\"", [], [], py "NaN", by decide, hname, hws, hws, .special (by decide)⟩
  have hitems := Separated.single hws hmember hws
  exact isText_of_isValue (d := 1) ⟨_, _, by decide, .inr hitems, rfl⟩

/-- A body with `NaN` is no JSON, and is not rejected. -/
theorem not_wrapsRequest_nan : ¬WrapsRequest 1000 1000 "\x7b\"a\":NaN\x7d".toUTF8 := by
  intro h
  have htext : decodeUtf8 "\x7b\"a\":NaN\x7d".toUTF8 = some (py "\x7b\"a\":NaN\x7d") := by
    decide +kernel
  obtain ⟨d, a, u, b, -, -, hu, -⟩ := ((wrappable_of_wrapsRequest h _ htext).2 _ isText_nan).1
  have hstandard := hu.bounded fun t n hn => (⟨t, hn⟩ : Standard n)
  cases d with
  | zero => exact hstandard
  | succ d =>
      have hnumber := (hstandard.2 _ List.mem_cons_self).2
      obtain ⟨t, ht⟩ : Standard (.literal (py "NaN")) := by cases d <;> exact hnumber
      exact not_literal_of_isNumber ht

end CodexResetProxy
