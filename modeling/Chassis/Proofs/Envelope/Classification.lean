import Chassis.Proofs.Envelope.Success
import Chassis.Proofs.Json.Accepted

/-!
# What a peer's response is taken for

> **From status 400 on, a response is taken for what its body spells: an internal failure where it
> spells no envelope, an unknown one with the body as its message where the code is zero, and
> otherwise the failure that the envelope tells** (`Failure.ofResponse_classified`).

What a body spells is said of the value that it is a JSON text of, so the three classes are those of
`Envelope.ofForm?`, over all bytes. A value without a code falls into two of them. It spells an
envelope only if a code is there, as a zero, with everything else that is required; a value that
leaves the code out spells none.

An envelope may also be written as the list of its fields, which has no names. Then there is no
`error` and no `code` to look for, and a code all the same.
-/

set_option autoImplicit false

namespace Chassis

open Json

namespace Json

/-- The values that an object has under a key; none where there is no object. -/
def Form.valuesAt (key : String) : Form → List Form
  | .object _ ms => (ms.toList.filter (·.1 == some key)).map Prod.snd
  | _ => []

theorem exists_mem_of_sole? {α : Type} {blank v : α} {spell? : Form → Option α}
    {ms : List (Option String × Form)} (h : Presence.required.sole? blank spell? ms = some v) :
    ∃ m ∈ ms, spell? m.2 = some v := by
  rcases ms with _ | ⟨m, _ | ⟨m', ms⟩⟩
  · cases h
  · exact ⟨m, List.mem_singleton_self m, h⟩
  · cases h

/-- A value that is written as a list has no names. -/
def Form.IsList (f : Form) : Prop := ∃ gap es, f = .list gap es

/-- A required field of a record that is not written as a list is among the values under its key. -/
theorem exists_mem_valuesAt {name key : String} {shape : Shape} {rest : Fields} {f : Form}
    {v : shape.Value} {vs : rest.Value} (hlist : ¬ f.IsList)
    (h : (Shape.record name (.cons key .required shape rest)).ofForm? f = some (v, vs)) :
    ∃ g ∈ f.valuesAt key, shape.ofForm? g = some v := by
  cases f with
  | list gap es => exact absurd ⟨gap, es, rfl⟩ hlist
  | object gap ms =>
    have h : (if ms.toList.all (·.1.isSome)
        then (Fields.cons key .required shape rest).ofMembers? ms.toList else none) =
      some (v, vs) := h
    split at h
    case isFalse => cases h
    case isTrue =>
      obtain ⟨w, hw, h⟩ := Option.bind_eq_some_iff.1 h
      obtain ⟨ws, -, h⟩ := Option.bind_eq_some_iff.1 h
      cases h
      obtain ⟨m, hm, hv⟩ := exists_mem_of_sole? hw
      exact ⟨m.2, List.mem_map_of_mem hm, hv⟩
  | _ => cases h

end Json

/-- A token outside the table means `unknown`. -/
theorem Code.ofToken_of_foreign {token : String} (h : ∀ c : Code, token ≠ c.token) :
    ofToken token = .unknown := by
  rw [ofToken]
  cases hfound : ofToken? token with
  | none => rfl
  | some c => exact absurd ((ofToken?_eq_some_iff token c).1 hfound) (h c)

namespace Envelope

/-- The envelope that a value spells. -/
def ofForm? (v : Form) : Option Envelope := (shape.ofForm? v).map ofParts

/-- A value tells no code: nothing under `error` is an object with a `code`, unless that is zero. -/
def LacksCode (v : Form) : Prop :=
  ∀ error ∈ v.valuesAt "error", ∀ code ∈ error.valuesAt "code", code.natural? = some 0

/-- The names are not left out: neither the value is a list nor what it has under `error`. -/
def IsNamed (v : Form) : Prop :=
  ¬ v.IsList ∧ ∀ error ∈ v.valuesAt "error", ¬ error.IsList

theorem decode_eq_ok_iff (bytes : List UInt8) (e : Envelope) :
    decode bytes = .ok e ↔
      ∃ parts : shape.Value, shape.readDocument bytes = .ok parts ∧ ofParts parts = e := by
  rw [decode]
  cases shape.readDocument bytes with
  | error fault =>
    refine iff_of_false (fun h => by cases h) ?_
    rintro ⟨parts, h, -⟩
    cases h
  | ok parts =>
    constructor
    · intro h
      exact ⟨parts, rfl, Except.ok.inj h⟩
    · rintro ⟨parts', h, rfl⟩
      cases h
      rfl

theorem ofForm?_eq_some_iff (v : Form) (e : Envelope) :
    ofForm? v = some e ↔ ∃ parts : shape.Value, shape.ofForm? v = some parts ∧ ofParts parts = e :=
  Option.map_eq_some_iff

/-- What the body is a text of tells what it is read as. -/
theorem decode_of_isTextOf {v : Form} {bytes : List UInt8} (hv : v.IsTextOf bytes) (e : Envelope) :
    decode bytes = .ok e ↔ ofForm? v = some e := by
  rw [decode_eq_ok_iff, ofForm?_eq_some_iff]
  exact exists_congr fun parts =>
    and_congr_left fun _ => shape.readDocument_of_isTextOf rfl hv parts

/-- Only texts are read. -/
theorem exists_isTextOf {bytes : List UInt8} {e : Envelope} (h : decode bytes = .ok e) :
    ∃ v : Form, v.IsTextOf bytes ∧ ofForm? v = some e := by
  obtain ⟨parts, hread, -⟩ := (decode_eq_ok_iff bytes e).1 h
  obtain ⟨v, hv, -⟩ := (shape.readDocument_eq_ok_iff rfl bytes parts).1 hread
  exact ⟨v, hv, (decode_of_isTextOf hv e).1 h⟩

/-- Where the names are not left out, the code of an envelope is there under its name. -/
theorem exists_code {v : Form} {e : Envelope} (h : ofForm? v = some e) (hn : IsNamed v) :
    ∃ error ∈ v.valuesAt "error", ∃ code ∈ error.valuesAt "code", code.word16? = some e.code := by
  obtain ⟨⟨⟨code, message, status, details, u⟩, u'⟩, hparts, rfl⟩ := (ofForm?_eq_some_iff v e).1 h
  obtain ⟨error, herror, hbody⟩ := exists_mem_valuesAt hn.1 hparts
  exact ⟨error, herror, exists_mem_valuesAt (hn.2 error herror) hbody⟩

theorem code_eq_zero {v : Form} {e : Envelope} (h : ofForm? v = some e) (hn : IsNamed v)
    (hl : LacksCode v) : e.code = 0 := by
  obtain ⟨error, herror, f, hf, hcode⟩ := exists_code h hn
  rw [Form.word16?, hl error herror f hf] at hcode
  exact (Option.some.inj hcode).symm

end Envelope

namespace Failure

/-- The failure that a peer's envelope tells: the code of its token, which is `unknown` for a token
outside the table, its message and its records, under the operation of the call. -/
structure Tells (f : Failure) (method url : String) (e : Envelope) : Prop where
  code : ∀ c : Code, e.status = c.token → f.explicitCode = some c
  foreign : (∀ c : Code, e.status ≠ c.token) → f.explicitCode = some .unknown
  message : f.description = e.message
  details : f.details = e.details
  ops : f.ops = [method ++ " " ++ url]

/-- The failure of which no more is known than the body. -/
structure TellsBody (f : Failure) (body : List UInt8) : Prop where
  code : f.explicitCode = some .unknown
  message : f.description = Text.Utf8.decodeLossy body

variable {method url : String} {status : Nat} {body : List UInt8} {f : Failure}

theorem ofResponse_eq_none_iff (method url : String) (status : Nat) (body : List UInt8) :
    ofResponse method url status body = none ↔ status < 400 := by
  by_cases hs : status < 400
  · rw [ofResponse, if_pos hs]
    exact iff_of_true rfl hs
  · obtain ⟨f, hf, -⟩ := exists_ofResponse method url body (Nat.not_lt.1 hs)
    refine iff_of_false (fun hnone => ?_) hs
    rw [hf] at hnone
    cases hnone

theorem internal_of_decode (h : ofResponse method url status body = some f)
    (hbody : ∀ e, Envelope.decode body ≠ .ok e) : f.explicitCode = some .internal := by
  rw [ofResponse] at h
  split at h
  case isTrue => cases h
  case isFalse =>
    split at h
    case h_1 => cases h; rfl
    case h_2 e he => exact absurd he (hbody e)

theorem tells_of_decode (h : ofResponse method url status body = some f) {e : Envelope}
    (he : Envelope.decode body = .ok e) (hcode : e.code ≠ 0) : f.Tells method url e := by
  rw [ofResponse, he] at h
  split at h
  case isTrue => cases h
  case isFalse =>
    simp only [if_neg hcode] at h
    cases h
    refine ⟨fun c hc => ?_, fun hforeign => ?_, rfl, rfl, ?_⟩
    · exact congrArg some ((congrArg Code.ofToken hc).trans c.ofToken_token)
    · exact congrArg some (Code.ofToken_of_foreign hforeign)
    · have hop : (callOperation method url != "") = true := by
        simpa using callOperation_ne_empty method url
      exact List.filter_cons_of_pos hop

theorem tellsBody_of_decode (h : ofResponse method url status body = some f) {e : Envelope}
    (he : Envelope.decode body = .ok e) (hcode : e.code = 0) : f.TellsBody body := by
  rw [ofResponse, he] at h
  split at h
  case isTrue => cases h
  case isFalse =>
    simp only [hcode, ↓reduceIte] at h
    cases h
    exact ⟨rfl, rfl⟩

/-- **What a response from status 400 on is taken for** goes by the value that its body is a JSON
text of. Without one the failure is internal, and so it is where the value spells no envelope. An
envelope with a code tells its failure, one with the code zero the body. So a text that tells no
code is taken for the body exactly if it spells an envelope all the same; where the code is left out
it never does. -/
theorem ofResponse_classified (method url : String) (status : Nat) (body : List UInt8) :
    (ofResponse method url status body = none ↔ status < 400) ∧
      ∀ f, ofResponse method url status body = some f →
        ((∀ v : Form, ¬ v.IsTextOf body) → f.explicitCode = some .internal) ∧
        ∀ v : Form, v.IsTextOf body →
          (Envelope.ofForm? v = none → f.explicitCode = some .internal) ∧
          (∀ e, Envelope.ofForm? v = some e → e.code ≠ 0 → f.Tells method url e) ∧
          (∀ e, Envelope.ofForm? v = some e → e.code = 0 → f.TellsBody body) ∧
          (Envelope.IsNamed v → Envelope.LacksCode v →
            (f.TellsBody body ↔ (Envelope.ofForm? v).isSome)) ∧
          (Envelope.IsNamed v → (∀ error ∈ v.valuesAt "error", error.valuesAt "code" = []) →
            f.explicitCode = some .internal) := by
  refine ⟨ofResponse_eq_none_iff method url status body, fun f hf => ⟨fun hbody => ?_,
    fun v hv => ?_⟩⟩
  · refine internal_of_decode hf fun e he => ?_
    obtain ⟨v, hv, -⟩ := Envelope.exists_isTextOf he
    exact hbody v hv
  · have hdecode := Envelope.decode_of_isTextOf hv
    have hinternal (hnone : Envelope.ofForm? v = none) : f.explicitCode = some .internal :=
      internal_of_decode hf fun e he => by rw [hdecode, hnone] at he; cases he
    refine ⟨hinternal, fun e he => tells_of_decode hf ((hdecode e).2 he),
      fun e he => tellsBody_of_decode hf ((hdecode e).2 he), fun hn hl => ?_, fun hn hleft => ?_⟩
    · cases he : Envelope.ofForm? v with
      | none =>
        refine iff_of_false (fun h => ?_) nofun
        cases (hinternal he).symm.trans h.code
      | some e =>
        have hzero := Envelope.code_eq_zero he hn hl
        exact iff_of_true (tellsBody_of_decode hf ((hdecode e).2 he) hzero) rfl
    · cases he : Envelope.ofForm? v with
      | none => exact hinternal he
      | some e =>
        obtain ⟨error, herror, code, hcode, -⟩ := Envelope.exists_code he hn
        rw [hleft error herror] at hcode
        cases hcode

/-- An envelope that a peer sends without a code. -/
def codeless : Envelope := ⟨0, "", "", []⟩

/-- One response of each class: none, no text, no code, a code. -/
theorem ofResponse_classified_each :
    ofResponse "GET" "/u" 204 [] = none ∧
      (∃ f, ofResponse "GET" "/u" 502 [] = some f ∧ f.explicitCode = some .internal) ∧
      (∃ f, ofResponse "GET" "/u" 500 (Text.Utf8.encode codeless.encode) = some f ∧
        f.TellsBody (Text.Utf8.encode codeless.encode)) ∧
      ∃ f, ofResponse "GET" "/u" 503 (Text.Utf8.encode (diskGone "UNAVAILABLE").encode) = some f ∧
        f.explicitCode = some .unavailable ∧ f.description = "disk gone" ∧ f.ops = ["GET /u"] := by
  have hsome (status : Nat) (body : List UInt8) (hs : 400 ≤ status) :
      ∃ f, ofResponse "GET" "/u" status body = some f :=
    Option.ne_none_iff_exists'.1 fun h =>
      absurd ((ofResponse_classified "GET" "/u" status body).1.1 h) (Nat.not_lt.2 hs)
  have hclass (status : Nat) (body : List UInt8) := (ofResponse_classified "GET" "/u" status body).2
  refine ⟨(ofResponse_classified "GET" "/u" 204 []).1.2 (by decide), ?_, ?_, ?_⟩
  · obtain ⟨f, hf⟩ := hsome 502 [] (by decide)
    refine ⟨f, hf, (hclass 502 [] f hf).1 fun v hv => ?_⟩
    obtain ⟨before, after, h⟩ := hv
    obtain ⟨b, t, hb, -⟩ := v.exists_first
    simp [hb] at h
  · obtain ⟨f, hf⟩ := hsome 500 (Text.Utf8.encode codeless.encode) (by decide)
    obtain ⟨v, hv, he⟩ := Envelope.exists_isTextOf (Envelope.decode_encode (e := codeless) nofun)
    exact ⟨f, hf, ((hclass 500 _ f hf).2 v hv).2.2.1 codeless he rfl⟩
  · obtain ⟨f, hf⟩ := hsome 503 (Text.Utf8.encode (diskGone "UNAVAILABLE").encode) (by decide)
    obtain ⟨v, hv, he⟩ :=
      Envelope.exists_isTextOf (Envelope.decode_encode (e := diskGone "UNAVAILABLE") nofun)
    have htells := ((hclass 503 _ f hf).2 v hv).2.1 (diskGone "UNAVAILABLE") he (by decide)
    exact ⟨f, hf, htells.code .unavailable rfl, htells.message, htells.ops⟩

/-- A text without a code is not always taken for the body: an object without members is an internal
failure. -/
theorem not_always_classified :
    ¬ ∀ (method url : String) (status : Nat) (body : List UInt8), 400 ≤ status →
      ∀ v : Form, v.IsTextOf body → Envelope.LacksCode v →
        ∃ f, ofResponse method url status body = some f ∧ f.TellsBody body := by
  intro h
  have hv : (Form.object Gap.none .nil).IsTextOf (Text.Utf8.encode "\x7b\x7d") :=
    ⟨Gap.none, Gap.none, rfl⟩
  obtain ⟨f, hf, htells⟩ := h "GET" "/u" 500 _ (by decide) _ hv nofun
  have hinternal := internal_of_decode hf fun e he => by
    rw [Envelope.decode_of_isTextOf hv] at he
    cases he
  cases hinternal.symm.trans htells.code

end Failure

end Chassis
