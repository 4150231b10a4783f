import Chassis.Proofs.Envelope.RoundTrip
import Chassis.RpcStatus

/-!
# When a peer's failure turns into a success

> **a peer's failure is told on as a failure if and only if its envelope does not call it a
> success** (`Failure.relayed_as_failure_iff`).

A response from status 400 on always leaves a failure behind, and what the instance tells of it goes
by its code alone. A body that cannot be read and an envelope without a code get codes of their own.
An envelope with a code gets the code of its token, whatever number stands beside it, and a token
outside the table means `unknown`. That leaves one token, the one of `ok`: under it the failure goes
on as a response with status 200 and as an RPC status without an error.
-/

set_option autoImplicit false

namespace Chassis

/-! ## The token of a success -/

namespace Code

theorem ofToken?_eq_some_iff (token : String) (c : Code) :
    ofToken? token = some c ↔ token = c.token := by
  constructor
  · intro h
    have hfound := List.find?_some h
    exact (beq_iff_eq.1 hfound).symm
  · rintro rfl
    exact ofToken?_token c

/-- No other token means `ok`, because one outside the table means `unknown`. -/
theorem ofToken_eq_ok_iff (token : String) : ofToken token = .ok ↔ token = Code.ok.token := by
  rw [← ofToken?_eq_some_iff, ofToken]
  cases ofToken? token with
  | none => decide
  | some c => simp

end Code

/-- A body that is an envelope with a code, and with the token of a success. -/
def Envelope.SaysOk (body : List UInt8) : Prop :=
  ∃ e, decode body = .ok e ∧ e.code ≠ 0 ∧ e.status = "OK"

namespace Failure

/-- From status 400 on there is a failure, and only a body that calls it a success gives it the code
of one. -/
theorem exists_ofResponse (method url : String) {status : Nat} (body : List UInt8)
    (hs : 400 ≤ status) :
    ∃ f, ofResponse method url status body = some f ∧
      (f.canonicalCode = .ok ↔ Envelope.SaysOk body) := by
  rw [ofResponse, if_neg (Nat.not_lt.2 hs)]
  cases hread : Envelope.decode body with
  | error fault =>
    refine ⟨_, rfl, iff_of_false ?_ ?_⟩
    · intro hok
      cases hok
    · rintro ⟨e, he, -⟩
      rw [hread] at he
      cases he
  | ok e =>
    have htold : Envelope.SaysOk body ↔ e.code ≠ 0 ∧ e.status = "OK" := by
      simp only [Envelope.SaysOk, hread, Except.ok.injEq, exists_eq_left']
    by_cases hcode : e.code = 0
    · simp only [hcode, ↓reduceIte]
      refine ⟨_, rfl, iff_of_false ?_ ?_⟩
      · intro hok
        cases hok
      · rw [htold]
        exact fun h => h.1 hcode
    · simp only [if_neg hcode]
      refine ⟨_, rfl, ?_⟩
      rw [htold, and_iff_right hcode]
      exact Code.ofToken_eq_ok_iff e.status

/-- **A peer's failure is told on as a failure if and only if its envelope does not call it a
success**, over HTTP and over RPC alike, and under whatever operation. An envelope that does is told
on as a plain success. -/
theorem relayed_as_failure_iff (method url op requestId : String) {status : Nat}
    (body : List UInt8) (order : Wire.EntryOrder) (hs : 400 ≤ status) :
    ∃ f, ofResponse method url status body = some f ∧
      (400 ≤ ((f.under op).toResponse requestId).status ↔ ¬ Envelope.SaysOk body) ∧
      (((f.under op).toStatus requestId order).code ≠ .ok ↔ ¬ Envelope.SaysOk body) ∧
      (Envelope.SaysOk body → ((f.under op).toResponse requestId).status = 200 ∧
        ((f.under op).toStatus requestId order).code = .ok) := by
  obtain ⟨f, hf, hok⟩ := exists_ofResponse method url body hs
  -- A label changes no code, so both renderings go by the code of `f`.
  have hstatus : ((f.under op).toResponse requestId).status = f.canonicalCode.httpStatus :=
    (f.under op).status_toResponse requestId
  have hcode : ((f.under op).toStatus requestId order).code = f.canonicalCode := rfl
  refine ⟨f, hf, ?_, ?_, fun hok' => ?_⟩
  · rw [hstatus, ← Nat.not_lt, Code.httpStatus_lt_iff, hok]
  · rw [hcode, Ne, hok]
  · have hok := hok.2 hok'
    rw [hstatus, hcode, hok]
    exact ⟨rfl, rfl⟩

/-- What a peer may send whose disk is gone, with a token of its own choice. -/
def diskGone (token : String) : Envelope := ⟨500, "disk gone", token, []⟩

example : (diskGone "OK").encode = "\x7b\"error\":\x7b\"code\":500,\"message\":\"disk gone\"," ++
    "\"status\":\"OK\",\"details\":[]\x7d\x7d" := by
  decide

theorem saysOk_diskGone_iff (token : String) :
    Envelope.SaysOk (Text.Utf8.encode (diskGone token).encode) ↔ token = "OK" := by
  have hread := Envelope.decode_encode (e := diskGone token) nofun
  have hcode : (diskGone token).code ≠ 0 := (by decide : (500 : UInt16) ≠ 0)
  simp only [Envelope.SaysOk, hread, Except.ok.injEq, exists_eq_left', and_iff_right hcode]
  rfl

/-- One failure with the token that belongs to it, and with the token of a success. -/
theorem relayed_as_failure_iff_disk_gone :
    400 ≤ 500 ∧
      (∃ f, ofResponse "GET" "http://peer/users/1" 500
          (Text.Utf8.encode (diskGone "INTERNAL").encode) = some f ∧
        400 ≤ ((f.under "relay").toResponse "r-1").status) ∧
      ∃ f, ofResponse "GET" "http://peer/users/1" 500
          (Text.Utf8.encode (diskGone "OK").encode) = some f ∧
        ((f.under "relay").toResponse "r-1").status = 200 := by
  refine ⟨by decide, ?_, ?_⟩
  · obtain ⟨f, hf, hfails, -, -⟩ := relayed_as_failure_iff "GET" "http://peer/users/1" "relay"
      "r-1" (Text.Utf8.encode (diskGone "INTERNAL").encode) .ascending (by decide : 400 ≤ 500)
    refine ⟨f, hf, hfails.2 fun hok' => ?_⟩
    exact absurd ((saysOk_diskGone_iff "INTERNAL").1 hok') (by decide)
  · obtain ⟨f, hf, -, -, hok⟩ := relayed_as_failure_iff "GET" "http://peer/users/1" "relay" "r-1"
      (Text.Utf8.encode (diskGone "OK").encode) .ascending (by decide : 400 ≤ 500)
    exact ⟨f, hf, (hok ((saysOk_diskGone_iff "OK").2 rfl)).1⟩

/-- Not every failure of a peer is told on as a failure. -/
theorem not_always_relayed_as_failure :
    ¬ ∀ (method url op requestId : String) (status : Nat) (body : List UInt8)
        (order : Wire.EntryOrder), 400 ≤ status →
      ∃ f, ofResponse method url status body = some f ∧
        400 ≤ ((f.under op).toResponse requestId).status ∧
        ((f.under op).toStatus requestId order).code ≠ .ok := by
  intro h
  obtain ⟨f, hf, -, hcode⟩ := h "GET" "http://peer/users/1" "relay" "r-1" 500
    (Text.Utf8.encode (diskGone "OK").encode) .ascending (by decide)
  obtain ⟨g, hg, hok⟩ := exists_ofResponse "GET" "http://peer/users/1"
    (Text.Utf8.encode (diskGone "OK").encode) (by decide : 400 ≤ 500)
  obtain rfl : f = g := Option.some.inj (hf.symm.trans hg)
  exact hcode (hok.2 ((saysOk_diskGone_iff "OK").2 rfl))

end Failure

end Chassis
