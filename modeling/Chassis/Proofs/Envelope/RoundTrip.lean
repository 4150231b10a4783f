import Chassis.Envelope
import Chassis.Proofs.Detail.Codec
import Chassis.Proofs.Detail.Merge

/-!
# A failure survives HTTP

> **the caller of a failing peer sees the peer's code, message and records under the operation of
> the call** (`Failure.ofResponse_toResponse`).

The response of a failure says everything twice, in the status line and in the envelope, and the two
agree because both come from one envelope. What the caller makes of it is the envelope read back, so
the theorem rests on the round trip of the envelope and on two facts about the table of HTTP
statuses: the statuses of outcomes other than `ok` are those from 400 on, and none of them is zero.
-/

set_option autoImplicit false

namespace Chassis

/-! ## The table of statuses -/

namespace Code

theorem toNat_httpStatus (c : Code) : c.httpStatus.toUInt16.toNat = c.httpStatus := by
  cases c <;> rfl

theorem httpStatus_ne_zero (c : Code) : c.httpStatus.toUInt16 ≠ 0 := by
  intro h
  have h : c.httpStatus = 0 := by
    rw [← toNat_httpStatus c, h]
    rfl
  cases c <;> exact absurd h (by decide)

/-- Only the outcome `ok` has an HTTP status that tells no failure. -/
theorem httpStatus_lt_iff (c : Code) : c.httpStatus < 400 ↔ c = .ok := by
  cases c <;> decide

end Code

/-- A record that a caller is told as text was a record of the root cause. -/
theorem Failure.other_mem_details_of_mem_rendered {f : Failure} {requestId t v : String}
    (h : Detail.other t v ∈ f.rendered requestId) : Detail.other t v ∈ f.details := by
  have h := Detail.mem_of_mem_merge rfl h
  simpa using h

/-! ## Envelopes -/

/-- **An envelope is read back** if its records can be. -/
theorem Envelope.decode_encode {e : Envelope}
    (h : ∀ t v, Detail.other t v ∈ e.details → (Detail.other t v).IsDecoded) :
    decode (Text.Utf8.encode e.encode) = .ok e := by
  have hread := shape.readDocument_write rfl e.toParts
  rw [decode, encode, Text.Utf8.encode, String.toList_ofList, hread]
  have hds := Detail.map_ofTexts_toTexts h
  cases e with
  | mk code message status details =>
    exact congrArg (fun ds => Except.ok (Envelope.mk code message status ds)) hds

/-! ## Failures -/

namespace Failure

variable {f : Failure} {requestId : String}

theorem decode_envelope_toResponse
    (h : ∀ t v, Detail.other t v ∈ f.details → (Detail.other t v).IsDecoded) :
    Envelope.decode (Text.Utf8.encode (f.toResponse requestId).envelope.encode) =
      .ok (f.toResponse requestId).envelope :=
  Envelope.decode_encode fun t v hm => h t v (other_mem_details_of_mem_rendered hm)

/-- The caller makes a failure of the envelope of one, whatever status from 400 on it came under. -/
theorem ofResponse_envelope (f : Failure) (requestId method url : String) {status : Nat}
    (hs : ¬ status < 400)
    (h : ∀ t v, Detail.other t v ∈ f.details → (Detail.other t v).IsDecoded) :
    ofResponse method url status
        (Text.Utf8.encode (f.toResponse requestId).envelope.encode) =
      some (ofCause (.remote ⟨f.description, f.rendered requestId⟩)
        ⟨some (callOperation method url), some f.canonicalCode⟩) := by
  have hcode : (f.toResponse requestId).envelope.code ≠ 0 := f.canonicalCode.httpStatus_ne_zero
  have htoken : (f.toResponse requestId).envelope.canonicalCode = f.canonicalCode :=
    f.canonicalCode.ofToken_token
  rw [ofResponse, if_neg hs, decode_envelope_toResponse h]
  simp only [if_neg hcode, htoken]
  rfl

theorem status_toResponse (f : Failure) (requestId : String) :
    (f.toResponse requestId).status = f.canonicalCode.httpStatus :=
  f.canonicalCode.toNat_httpStatus

/-- A response tells a failure unless its code is `ok`. -/
theorem ofResponse_toResponse_eq_none_iff (method url : String)
    (h : ∀ t v, Detail.other t v ∈ f.details → (Detail.other t v).IsDecoded) :
    ofResponse method url (f.toResponse requestId).status
        (Text.Utf8.encode (f.toResponse requestId).envelope.encode) = none ↔
      f.canonicalCode = .ok := by
  rw [← Code.httpStatus_lt_iff, ← f.status_toResponse requestId]
  by_cases hs : (f.toResponse requestId).status < 400
  · rw [ofResponse, if_pos hs]
    exact iff_of_true rfl hs
  · rw [ofResponse_envelope f requestId method url hs h]
    exact iff_of_false (by simp) hs

theorem callOperation_ne_empty (method url : String) : callOperation method url ≠ "" := by
  intro h
  have h : (method ++ " " ++ url).toList = [] := by
    rw [show method ++ " " ++ url = "" from h]
    rfl
  simp [String.toList_append] at h

/-- **The caller of a failing peer sees the peer's code, message and records** under the operation
of the call, and what the response says in two places agrees. -/
theorem ofResponse_toResponse (f : Failure) (requestId method url : String)
    (h : ∀ t v, Detail.other t v ∈ f.details → (Detail.other t v).IsDecoded) :
    let response := f.toResponse requestId
    let body := Text.Utf8.encode response.envelope.encode
    Envelope.decode body = .ok response.envelope ∧
      response.status = response.envelope.code.toNat ∧
      response.status = f.canonicalCode.httpStatus ∧
      response.summary.status = response.envelope.status ∧
      response.summary.message = response.envelope.message ∧
      (ofResponse method url response.status body = none ↔ f.canonicalCode = .ok) ∧
      (f.canonicalCode ≠ .ok → ∃ d, ofResponse method url response.status body = some d ∧
        d.explicitCode = some f.canonicalCode ∧
        d.description = f.description ∧
        d.ops = [method ++ " " ++ url] ∧
        d.details =
          Detail.merge (.debug ⟨f.ops, ""⟩ :: .request ⟨requestId, ""⟩ :: f.details)) := by
  intro response body
  refine ⟨decode_envelope_toResponse h, rfl, f.status_toResponse requestId, rfl, rfl,
    ofResponse_toResponse_eq_none_iff method url h, fun hok => ?_⟩
  have hs : ¬ response.status < 400 := by
    rw [f.status_toResponse requestId, Code.httpStatus_lt_iff]
    exact hok
  refine ⟨_, ofResponse_envelope f requestId method url hs h, rfl, rfl, ?_, rfl⟩
  have hop : (callOperation method url != "") = true := by
    simpa using callOperation_ne_empty method url
  exact List.filter_cons_of_pos hop

/-- A record of a type that nobody knows comes through as the text it is. -/
theorem ofResponse_toResponse_unknown_type :
    let f := ofCause (.remote ⟨"gone", [.other "acme.Trace" "[1]"]⟩)
      ⟨some "users.get", some .notFound⟩
    (∀ t v, Detail.other t v ∈ f.details → (Detail.other t v).IsDecoded) ∧
      ∃ d, ofResponse "GET" "/users/1" (f.toResponse "r-1").status
          (Text.Utf8.encode (f.toResponse "r-1").envelope.encode) = some d ∧
        d.details = [.request ⟨"r-1", ""⟩, .debug ⟨["users.get"], ""⟩,
          .other "acme.Trace" "[1]"] := by
  intro f
  have h : ∀ t v, Detail.other t v ∈ f.details → (Detail.other t v).IsDecoded := by
    intro t v hm
    have hm : Detail.other t v ∈ [Detail.other "acme.Trace" "[1]"] := hm
    obtain ⟨rfl, rfl⟩ : t = "acme.Trace" ∧ v = "[1]" := by simpa using hm
    exact ⟨"acme.Trace", "[1]", rfl⟩
  refine ⟨h, ?_⟩
  obtain ⟨-, -, -, -, -, -, hd⟩ := ofResponse_toResponse f "r-1" "GET" "/users/1" h
  obtain ⟨d, hd, -, -, -, hdetails⟩ := hd (by decide)
  exact ⟨d, hd, hdetails⟩

end Failure

end Chassis
