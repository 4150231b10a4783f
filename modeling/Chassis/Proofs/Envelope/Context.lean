import Chassis.Proofs.Detail.Regrouping
import Chassis.Proofs.Envelope.Success

/-!
# Which records of a relayed envelope bear the names of the merged ones

> **an envelope that is told on has one record under the name of the request and one under that of
> the way, and besides these every text that the peer sent under one of the two names and that is
> no payload of it** (`Failure.sole_context_iff`).

Merging goes by the sort of a record, and so there is one record of either sort at the head of the
list. What goes over the wire is the name of a record, and the two part company for a text that does
not read as the payload of its name: such a record is kept as the text it came in, name and all, and
merging takes it for a record of its own.
-/

set_option autoImplicit false

namespace Chassis

namespace Detail

/-- The names of the records that are merged, in the order in which they are told. -/
def mergedNames : List String := ["google.rpc.RequestInfo", "google.rpc.DebugInfo"]

/-- A text under the name of a merged record that is no payload of it. -/
def IsMisread (name text : String) : Prop :=
  name ∈ mergedNames ∧ ∀ d : Detail, d.typeName = name → ¬ Holds text d

/-- The record has a name and is kept as a text. -/
def isTextUnder (name : String) : Detail → Bool
  | .other typeName _ => typeName == name
  | _ => false

theorem typeName_of_isTextUnder {name : String} {d : Detail} (h : d.isTextUnder name = true) :
    d.typeName = name := by
  cases d with
  | other typeName value => exact beq_iff_eq.1 h
  | _ => cases h

/-- Of the records that are not merged, those under a merged name are texts. -/
theorem typeName_beq_of_isOwn {name : String} (hname : name ∈ mergedNames) {d : Detail}
    (hown : d.isOwn = true) : (d.typeName == name) = d.isTextUnder name := by
  have hname : name = "google.rpc.RequestInfo" ∨ name = "google.rpc.DebugInfo" := by
    simpa [mergedNames] using hname
  cases d with
  | request info => cases hown
  | debug info => cases hown
  | other typeName value => rfl
  | _ => rcases hname with rfl | rfl <;> rfl

/-- A text that is no payload of its name leaves nothing of a known type. -/
theorem isMisread_iff (name text : String) :
    IsMisread name text ↔ name ∈ mergedNames ∧ decodeKnown? name text = none := by
  refine and_congr_right fun _ => ?_
  constructor
  · intro h
    refine Option.eq_none_iff_forall_ne_some.2 fun d hd => ?_
    obtain ⟨hname, hholds⟩ := decodeKnown?_eq_some_iff.1 hd
    exact h d hname hholds
  · intro hnone d hname hholds
    have hsome := decodeKnown?_eq_some_iff.2 ⟨hname, hholds⟩
    rw [hnone] at hsome
    cases hsome

instance (name text : String) : Decidable (IsMisread name text) :=
  decidable_of_iff' _ (isMisread_iff name text)

/-- A record is kept as a text exactly where the text is no payload of the name. -/
theorem isTextUnder_decode_iff {name : String} (hname : name ∈ mergedNames)
    (typeName text : String) :
    (decode typeName text).isTextUnder name = true ↔ typeName = name ∧ IsMisread name text := by
  constructor
  · intro h
    have h' := typeName_of_isTextUnder h
    rw [typeName_decode] at h'
    subst h'
    refine ⟨rfl, (isMisread_iff typeName text).2 ⟨hname, ?_⟩⟩
    cases hknown : decodeKnown? typeName text with
    | none => rfl
    | some d =>
      rw [decode, hknown] at h
      cases (decodeKnown?_eq_some_iff.1 hknown).2 <;> cases h
  · rintro ⟨rfl, -, hno⟩
    rw [decode_of_not_holds hno]
    exact beq_self_eq_true typeName

/-- **Under a merged name a merged list has one record more than there are texts under it.** -/
theorem count_typeName_merge {name : String} (hname : name ∈ mergedNames) (ds : List Detail) :
    ((merge ds).map typeName).count name = 1 + ds.countP (isTextUnder name) := by
  have hown : ((ds.filter isOwn).map typeName).count name = ds.countP (isTextUnder name) := by
    rw [List.count, List.countP_map, List.countP_filter]
    refine List.countP_congr fun d _ => ?_
    cases hd : d.isOwn with
    | true => rw [Bool.and_true, Function.comp_apply, typeName_beq_of_isOwn hname hd]
    | false =>
      cases d with
      | request info => simp [isTextUnder]
      | debug info => simp [isTextUnder]
      | _ => cases hd
  rw [merge_eq, List.map_cons, List.map_cons, List.count_cons, List.count_cons, hown]
  have hname : name = "google.rpc.RequestInfo" ∨ name = "google.rpc.DebugInfo" := by
    simpa [mergedNames] using hname
  rcases hname with rfl | rfl
  · simp [typeName, Nat.add_comm]
  · simp [typeName, Nat.add_comm]

end Detail

namespace Envelope

/-- The records of a body that is an envelope with a code, as they are written: name and payload.
Nothing is taken from any other body. -/
def recordsIn (body : List UInt8) : List (String × String) :=
  match shape.readDocument body with
  | .error _ => []
  | .ok (parts : Parts) =>
    if parts.1.1 = 0 then [] else parts.1.2.2.2.1.map fun texts => (texts.1, texts.2.1)

/-- What is written of an envelope is the name and the payload of each record. -/
theorem recordsIn_encode {e : Envelope} (hcode : e.code ≠ 0) :
    recordsIn (Text.Utf8.encode e.encode) = e.details.map fun d => (d.typeName, d.valueJson) := by
  have hread : shape.readDocument (Text.Utf8.encode e.encode) = .ok e.toParts := by
    rw [encode, Text.Utf8.encode, String.toList_ofList]
    exact shape.readDocument_write rfl e.toParts
  rw [recordsIn, hread]
  show (if e.code = 0 then [] else _) = _
  rw [if_neg hcode]
  exact List.map_map

/-- The body is an envelope with a code, which is made of the records in it, or else there are
none. -/
theorem recordsIn_cases (body : List UInt8) :
    (∃ e, decode body = .ok e ∧ e.code ≠ 0 ∧
        e.details = (recordsIn body).map fun r => Detail.decode r.1 r.2) ∨
      recordsIn body = [] ∧ ∀ e, decode body = .ok e → e.code = 0 := by
  rw [recordsIn, decode]
  cases hread : shape.readDocument body with
  | error fault => exact .inr ⟨rfl, fun e he => by cases he⟩
  | ok parts =>
    by_cases hcode : (ofParts parts).code = 0
    · refine .inr ⟨if_pos hcode, ?_⟩
      rintro e he
      cases he
      exact hcode
    · refine .inl ⟨ofParts parts, rfl, hcode, ?_⟩
      show (ofParts parts).details = (if (ofParts parts).code = 0 then [] else _).map _
      rw [if_neg hcode, List.map_map]
      rfl

end Envelope

namespace Failure

/-- The records of a failure that a peer tells are those in the body, and where there are none the
failure has a record of its own, which gives a reason. -/
theorem details_ofResponse (method url : String) {status : Nat} (body : List UInt8)
    (hs : 400 ≤ status) :
    ∃ f, ofResponse method url status body = some f ∧
      (f.details = (Envelope.recordsIn body).map (fun r => Detail.decode r.1 r.2) ∨
        Envelope.recordsIn body = [] ∧ ∃ reason, f.details = [Detail.ofReason reason]) := by
  rw [ofResponse, if_neg (Nat.not_lt.2 hs)]
  rcases Envelope.recordsIn_cases body with ⟨e, he, hcode, hdetails⟩ | ⟨hnone, hzero⟩
  · rw [he]
    simp only [if_neg hcode]
    exact ⟨_, rfl, .inl hdetails⟩
  · cases he : Envelope.decode body with
    | error fault => exact ⟨_, rfl, .inr ⟨hnone, _, rfl⟩⟩
    | ok e =>
      simp only [hzero e he, ↓reduceIte]
      exact ⟨_, rfl, .inr ⟨hnone, _, rfl⟩⟩

/-- The texts under a merged name among the records of a failure that a peer tells. -/
theorem countP_isTextUnder_ofResponse (method url : String) {status : Nat} (body : List UInt8)
    (hs : 400 ≤ status) :
    ∃ f, ofResponse method url status body = some f ∧
      ∀ name ∈ Detail.mergedNames, f.details.countP (Detail.isTextUnder name) =
        (Envelope.recordsIn body).countP fun r => r.1 = name ∧ Detail.IsMisread name r.2 := by
  obtain ⟨f, hf, hdetails | ⟨hnone, reason, hdetails⟩⟩ := details_ofResponse method url body hs
  · refine ⟨f, hf, fun name hname => ?_⟩
    rw [hdetails, List.countP_map]
    refine List.countP_congr fun r _ => ?_
    rw [Function.comp_apply, Detail.isTextUnder_decode_iff hname, decide_eq_true_iff]
  · refine ⟨f, hf, fun name _ => ?_⟩
    rw [hdetails, hnone]
    rfl

/-- The names of the records in the envelope that tells a failure on under an operation. -/
def namesTold (f : Failure) (op requestId : String) : List String :=
  (Envelope.recordsIn
    (Text.Utf8.encode ((f.under op).toResponse requestId).envelope.encode)).map Prod.fst

theorem namesTold_eq (f : Failure) (op requestId : String) :
    f.namesTold op requestId = ((f.under op).rendered requestId).map Detail.typeName := by
  rw [namesTold, Envelope.recordsIn_encode (f.under op).canonicalCode.httpStatus_ne_zero,
    List.map_map]
  rfl

/-- Under a merged name an envelope that is told on has one record more than the peer sent texts
under it that are no payloads of it. -/
theorem count_namesTold (method url op requestId : String) {status : Nat} (body : List UInt8)
    (hs : 400 ≤ status) :
    ∃ f, ofResponse method url status body = some f ∧
      ∀ name ∈ Detail.mergedNames, (f.namesTold op requestId).count name =
        1 + (Envelope.recordsIn body).countP fun r => r.1 = name ∧ Detail.IsMisread name r.2 := by
  obtain ⟨f, hf, htexts⟩ := countP_isTextUnder_ofResponse method url body hs
  refine ⟨f, hf, fun name hname => ?_⟩
  rw [namesTold_eq, rendered, Detail.count_typeName_merge hname, ← htexts name hname]
  rfl

/-- **An envelope that is told on has one record under the name of the request and one under that
of the way**, at the head of the list, and besides these the texts that the peer sent under one of
the two names and that are no payloads of it. So there is one record under either name if and only
if the peer sent no such text. -/
theorem sole_context_iff (method url op requestId : String) {status : Nat} (body : List UInt8)
    (hs : 400 ≤ status) :
    ∃ f, ofResponse method url status body = some f ∧
      (∃ more, f.namesTold op requestId =
        "google.rpc.RequestInfo" :: "google.rpc.DebugInfo" :: more) ∧
      (∀ name ∈ Detail.mergedNames, (f.namesTold op requestId).count name =
        1 + (Envelope.recordsIn body).countP fun r => r.1 = name ∧ Detail.IsMisread name r.2) ∧
      ((∀ name ∈ Detail.mergedNames, (f.namesTold op requestId).count name = 1) ↔
        ∀ r ∈ Envelope.recordsIn body, ¬ Detail.IsMisread r.1 r.2) := by
  obtain ⟨f, hf, hcount⟩ := count_namesTold method url op requestId body hs
  refine ⟨f, hf, ⟨_, namesTold_eq f op requestId⟩, hcount, ?_⟩
  constructor
  · intro hsole r hr hmisread
    have hnone := hsole r.1 hmisread.1
    rw [hcount r.1 hmisread.1, Nat.add_eq_left, List.countP_eq_zero] at hnone
    exact hnone r hr (decide_eq_true ⟨rfl, hmisread⟩)
  · intro hread name hname
    rw [hcount name hname, Nat.add_eq_left, List.countP_eq_zero]
    intro r hr hmisread
    obtain ⟨rfl, hmisread⟩ := of_decide_eq_true hmisread
    exact hread r hr hmisread

/-- What a peer may send whose record about the request is no JSON text. -/
def misread : Envelope :=
  ⟨404, "m", "NOT_FOUND", [.other "google.rpc.RequestInfo" "not json"]⟩

theorem recordsIn_misread : Envelope.recordsIn (Text.Utf8.encode misread.encode) =
    [("google.rpc.RequestInfo", "not json")] :=
  Envelope.recordsIn_encode (by decide : (404 : UInt16) ≠ 0)

theorem isMisread_notJson : Detail.IsMisread "google.rpc.RequestInfo" "not json" := by
  decide +kernel

/-- The record is told on beside the one about the request; the one about the way is alone. -/
theorem sole_context_iff_misread :
    400 ≤ 404 ∧ ∃ f, ofResponse "GET" "/users/1" 404 (Text.Utf8.encode misread.encode) = some f ∧
      (f.namesTold "relay" "r-1").count "google.rpc.RequestInfo" = 2 ∧
      (f.namesTold "relay" "r-1").count "google.rpc.DebugInfo" = 1 := by
  obtain ⟨f, hf, -, hcount, -⟩ := sole_context_iff "GET" "/users/1" "relay" "r-1"
    (Text.Utf8.encode misread.encode) (by decide : 400 ≤ 404)
  rw [recordsIn_misread] at hcount
  have hrequest := hcount "google.rpc.RequestInfo" (by decide)
  have hdebug := hcount "google.rpc.DebugInfo" (by decide)
  refine ⟨by decide, f, hf, ?_, ?_⟩
  · rw [hrequest, List.countP_singleton, decide_eq_true ⟨rfl, isMisread_notJson⟩]
    rfl
  · rw [hdebug, List.countP_singleton]
    rfl

/-- The record about the request is not always the only one under its name. -/
theorem not_always_sole_context :
    ¬ ∀ (method url op requestId : String) (status : Nat) (body : List UInt8), 400 ≤ status →
      ∃ f, ofResponse method url status body = some f ∧
        (∃ more, f.namesTold op requestId =
          "google.rpc.RequestInfo" :: "google.rpc.DebugInfo" :: more) ∧
        (f.namesTold op requestId).count "google.rpc.RequestInfo" = 1 ∧
        (f.namesTold op requestId).count "google.rpc.DebugInfo" = 1 := by
  intro h
  obtain ⟨f, hf, -, hsole, -⟩ := h "GET" "/users/1" "relay" "r-1" 404
    (Text.Utf8.encode misread.encode) (by decide)
  obtain ⟨g, hg, hcount⟩ := count_namesTold "GET" "/users/1" "relay" "r-1"
    (Text.Utf8.encode misread.encode) (by decide : 400 ≤ 404)
  obtain rfl : f = g := Option.some.inj (hf.symm.trans hg)
  have hmisread : (Envelope.recordsIn (Text.Utf8.encode misread.encode)).countP
      (fun r => r.1 = "google.rpc.RequestInfo" ∧
        Detail.IsMisread "google.rpc.RequestInfo" r.2) = 1 := by
    rw [recordsIn_misread, List.countP_singleton, decide_eq_true ⟨rfl, isMisread_notJson⟩]
    rfl
  rw [hcount "google.rpc.RequestInfo" (by decide), hmisread] at hsole
  cases hsole

end Failure

end Chassis
