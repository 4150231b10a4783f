import Chassis.Proofs.Http.Values
import Chassis.Proofs.Rest.Envelopes

/-!
# One id for a request

> **a failure that is told here, its response and the caller speak of the request under one id if
> the caller sent none or one that is visible ASCII, and only then**
> (`Rest.Service.hasOneId_handle`).

The id goes two ways. The value of the header goes back as it came; the text of the id goes to the
handler, and from there into the record about the request. They meet again because the value is the
bytes of the text (`Http.Request.idValue_eq_encode_id`), and because a failure that was raised here
has no record about the request that could take the place of its own. A value that is not visible
ASCII is no text for the handler, which then speaks of a fresh id (`not_always_hasOneId`).
-/

set_option autoImplicit false

namespace Chassis

open Text.Utf8

namespace Http

/-! ## The id of a request -/

/-- **The value of the id goes back as the bytes of its text**, if the caller sent none or one that
is visible. -/
theorem Request.idValue_eq_encode_id {r : Request} (fresh : String)
    (h : ∀ value, r.header? "x-request-id" = some value → IsVisibleValue value) :
    r.idValue fresh = encode (r.id fresh) := by
  rw [Request.id]
  cases hheader : r.header? "x-request-id" with
  | some value =>
    obtain ⟨text, htext⟩ := exists_visibleText?_iff.2 (h value hheader)
    have hvalue : r.idValue fresh = value := by rw [idValue, hheader, Option.getD_some]
    rw [hvalue, htext, Option.getD_some, encode_of_visibleText? htext]
  | none =>
    have hvalue : r.idValue fresh = encode fresh := by rw [idValue, hheader, Option.getD_none]
    rw [hvalue]
    cases htext : visibleText? (encode fresh) with
    | some text => rw [Option.getD_some, encode_of_visibleText? htext]
    | none => rw [Option.getD_none]

/-- **A value that is not visible is no text for the handler**, which is given a fresh id. -/
theorem Request.id_of_hidden {r : Request} (fresh : String)
    (h : ¬ ∀ value, r.header? "x-request-id" = some value → IsVisibleValue value) :
    r.id fresh = fresh := by
  obtain ⟨value, hheader, hhidden⟩ : ∃ value,
      r.header? "x-request-id" = some value ∧ ¬ IsVisibleValue value := by
    simpa only [not_forall, exists_prop] using h
  have hvalue : r.idValue fresh = value := by rw [idValue, hheader, Option.getD_some]
  have hnone : visibleText? value = none := by
    rw [Option.eq_none_iff_forall_ne_some]
    exact fun text htext => hhidden (exists_visibleText?_iff.1 ⟨text, htext⟩)
  rw [Request.id, hvalue, hnone, Option.getD_none]

/-- So it does not go back as the bytes of that text. -/
theorem Request.isVisibleValue_of_idValue_eq {r : Request} {fresh : String}
    (hfresh : IsVisibleValue (encode fresh)) (h : r.idValue fresh = encode (r.id fresh)) :
    ∀ value, r.header? "x-request-id" = some value → IsVisibleValue value := by
  by_contra hhidden
  rw [Request.id_of_hidden fresh hhidden] at h
  refine hhidden fun value hheader => ?_
  rw [← show r.idValue fresh = value by rw [idValue, hheader, Option.getD_some], h]
  exact hfresh

/-! ## Responses -/

/-- The envelope of the response speaks of the request under an id, and under no other. -/
def Response.TellsId (response : Response) (id : String) : Prop :=
  ∃ e rest, Envelope.decode response.body = .ok e ∧ e.details = .request ⟨id, ""⟩ :: rest ∧
    rest.filterMap Detail.request? = []

/-- The envelope of the response, its header and the caller, if it sent one, tell one id. -/
def Response.HasOneId (response : Response) (r : Request) : Prop :=
  ∃ id, response.TellsId id ∧
    response.headers.filter (·.name == "x-request-id") = [⟨"x-request-id", encode id⟩] ∧
    ∀ value, r.header? "x-request-id" = some value → value = encode id

/-- Only one header of the response of a failure has the id. -/
theorem Response.filter_headers_ofFailure (response : FailureResponse) (value : List UInt8) :
    ((ofFailure response).withHeader ⟨"x-request-id", value⟩).headers.filter
      (·.name == "x-request-id") = [⟨"x-request-id", value⟩] := by
  have htype : (Header.ofText "content-type" "application/json").name = "content-type" := rfl
  rw [withHeader, ofFailure, ofJson, List.filter_append, List.filter_cons_of_neg, List.filter_nil,
    List.nil_append, List.filter_cons_of_pos, List.filter_nil]
  · exact beq_self_eq_true _
  · rw [htype]
    decide

/-- The response of a failure that was raised here tells the id under which it was rendered. -/
theorem Response.tellsId_ofFailure_iff {f : Failure} (hlocal : f.root.IsLocal)
    (requestId id : String) (header : Header) :
    ((ofFailure (f.toResponse requestId)).withHeader header).TellsId id ↔ id = requestId := by
  have hown : ∀ d ∈ f.details, d.isOwn = true := fun d hd =>
    (Cause.details_of_isLocal hlocal d hd).1
  have hrendered : (f.toResponse requestId).envelope.details =
      .request ⟨requestId, ""⟩ :: .debug ⟨f.ops, ""⟩ :: f.details :=
    Detail.merge_own f.ops requestId hown
  rw [TellsId, withHeader, body_ofFailure,
    Failure.decode_envelope_toResponse (Failure.isTellable_of_isLocal hlocal)]
  constructor
  · rintro ⟨e, rest, hdecode, hdetails, -⟩
    rw [← Except.ok.inj hdecode, hrendered] at hdetails
    have hrequest := Detail.request.inj (List.cons.inj hdetails).1
    exact (congrArg RequestInfo.requestId hrequest).symm
  · rintro rfl
    refine ⟨_, .debug ⟨f.ops, ""⟩ :: f.details, rfl, hrendered, ?_⟩
    refine List.filterMap_eq_nil_iff.2 (List.forall_mem_cons.2 ⟨rfl, fun d hd => ?_⟩)
    exact (Detail.picks_eq_none (hown d hd)).1

/-- So there is one id if and only if it is the one in the header. -/
theorem Response.hasOneId_ofFailure_iff {f : Failure} (hlocal : f.root.IsLocal) (r : Request)
    (fresh : String) :
    ((ofFailure (f.toResponse (r.id fresh))).withHeader
      ⟨"x-request-id", r.idValue fresh⟩).HasOneId r ↔ r.idValue fresh = encode (r.id fresh) := by
  simp only [HasOneId, tellsId_ofFailure_iff hlocal, filter_headers_ofFailure, exists_eq_left]
  constructor
  · rintro ⟨hheader, -⟩
    exact congrArg Header.value (List.cons.inj hheader).1
  · intro hvalue
    refine ⟨by rw [hvalue], fun value hheader => ?_⟩
    rw [← hvalue, Request.idValue, hheader, Option.getD_some]

end Http

/-! ## Requests -/

namespace Rest

open Http

/-- Only a failure is told in an envelope. -/
theorem Outcome.exists_eq_failed {o : Outcome} {requestId : String}
    (h : (o.respond requestId).TellsFailure) : ∃ f, o = .failed f := by
  cases o with
  | failed f => exact ⟨f, rfl⟩
  | malformedSegment => exact absurd h (Response.not_tellsFailure_of_fault rfl)
  | healthy | late | found u => exact absurd h.le_status (by decide : ¬ 400 ≤ 200)
  | created u => exact absurd h.le_status (by decide : ¬ 400 ≤ 201)

namespace Service

section Answers

variable [Net.HostNames] {s : Service} {network : Peer.Network} {fresh : String} {d : Directory}
  {r : Request}

/-- A response that tells a failure that was raised here is that of the failure with the id. -/
theorem exists_handle_eq (htells : (s.handle network fresh d r).1.TellsFailure)
    (hown : ¬ s.PassesOn network fresh r) :
    ∃ f : Failure, f.root.IsLocal ∧ (s.handle network fresh d r).1 =
      (Response.ofFailure (f.toResponse (r.id fresh))).withHeader
        ⟨"x-request-id", r.idValue fresh⟩ := by
  have hhead : r.method ≠ "HEAD" := fun hhead =>
    Response.not_tellsFailure_of_empty (body_handle_head s network fresh d r hhead) htells
  have hanswer := (tellsFailure_handle s network fresh d r hhead).1 htells
  obtain ⟨-, hmethod, -⟩ := (tellsFailure_answer_iff s network fresh d r).1 hanswer
  obtain ⟨o, d', heq, horigin, -⟩ := answer_of_not_lacksMethod network fresh d hmethod
  rw [heq] at hanswer
  obtain ⟨f, rfl⟩ := Outcome.exists_eq_failed hanswer
  have hlocal : f.root.IsLocal := (horigin f rfl).resolve_right fun htold => hown htold.1
  refine ⟨f, hlocal, ?_⟩
  simp only [handle, heq, if_neg hhead, Outcome.respond]

/-- **A failure that is told here, its response and the caller speak of the request under one id**,
if the caller sent none or one that is visible. One that is not goes back in the header all the
same, but the envelope speaks of a fresh id, which is visible. The failure is told in an envelope
that is not passed on from the peer. -/
theorem hasOneId_handle (s : Service) (network : Peer.Network) (fresh : String) (d : Directory)
    (r : Request) (htells : (s.handle network fresh d r).1.TellsFailure)
    (hown : ¬ s.PassesOn network fresh r) :
    let response := (s.handle network fresh d r).1
    let allVisible := ∀ value, r.header? "x-request-id" = some value → IsVisibleValue value
    (∀ value, r.header? "x-request-id" = some value →
        response.headers.filter (·.name == "x-request-id") = [⟨"x-request-id", value⟩]) ∧
      (allVisible → response.HasOneId r) ∧
      (¬ allVisible → response.TellsId fresh) ∧
      (IsVisibleValue (encode fresh) → response.HasOneId r → allVisible) := by
  intro response allVisible
  obtain ⟨f, hlocal, heq⟩ := exists_handle_eq htells hown
  have hone : response.HasOneId r ↔ r.idValue fresh = encode (r.id fresh) := by
    rw [show response = _ from heq]
    exact Response.hasOneId_ofFailure_iff hlocal r fresh
  refine ⟨fun value hheader => ?_, fun hvisible => ?_, fun hhidden => ?_, fun hfresh hid => ?_⟩
  · rw [show response = _ from heq, Response.filter_headers_ofFailure, Request.idValue, hheader,
      Option.getD_some]
  · exact hone.2 (r.idValue_eq_encode_id fresh hvisible)
  · rw [show response = _ from heq, Response.tellsId_ofFailure_iff hlocal]
    exact (Request.id_of_hidden fresh hhidden).symm
  · exact Request.isVisibleValue_of_idValue_eq hfresh (hone.1 hid)

/-- A failure that was raised here is told, whatever it is. -/
theorem tellsFailure_of_isLocal {f : Failure} (hlocal : f.root.IsLocal)
    (hcode : f.canonicalCode ≠ .ok) (hhead : r.method ≠ "HEAD")
    (hanswer : (s.answer network fresh d r).1 = (Outcome.failed f).respond (r.id fresh)) :
    (s.handle network fresh d r).1.TellsFailure := by
  rw [tellsFailure_handle s network fresh d r hhead, hanswer]
  refine Response.tellsFailure_ofFailure (Failure.isTellable_of_isLocal hlocal) (r.id fresh) ?_
  rw [Failure.status_toResponse]
  exact Nat.not_lt.1 (mt f.canonicalCode.httpStatus_lt_iff.1 hcode)

/-- A request for a resource that is not asked of the peer is not answered by it. -/
theorem not_passesOn (h : ∀ resource, s.resource? r = some resource →
    ∀ segment, resource.action ≠ .getPeerUser segment) : ¬ s.PassesOn network fresh r := by
  rintro ⟨-, call, -, ⟨resource, hresource, segment, id, c, haction, -⟩, -⟩
  exact h resource hresource segment haction

end Answers

/-- What the peer tells is not passed on if it comes too late. That is told here, under the id of
the caller, which has a space and a tab in it. -/
theorem hasOneId_handle_too_late :
    let c : PeerClient := ⟨{ baseUrl := "http://peer" }, by decide⟩
    let s : Service := { peer := some c, limit := ⟨1⟩ }
    let told := ((Failure.ofKind (.notFound "user" "7")).toResponse "r-2").envelope
    let network : Peer.Network := fun _ =>
      { result := .ok ⟨404, "http://peer/users/7", { result := .ok (encode told.encode) }⟩
        after := 3000 }
    let value : List UInt8 := [0x61, 0x20, 0x62, 0x09, 0x63]
    let r : Request := { target := "/peer/users/7", headers := [⟨"X-Request-ID", value⟩] }
    let response := (s.handle network "r-1" {} r).1
    (∀ value, r.header? "x-request-id" = some value → IsVisibleValue value) ∧
      response.TellsFailure ∧ ¬ s.PassesOn network "r-1" r ∧ response.HasOneId r := by
  intro c s told network value r response
  have hheader : r.header? "x-request-id" = some value := by decide +kernel
  have hresource : s.resource? r = some ⟨.get, .getPeerUser "7"⟩ := by decide +kernel
  have hvisible : ∀ value, r.header? "x-request-id" = some value → IsVisibleValue value := by
    intro value' hvalue
    rw [hheader] at hvalue
    obtain rfl := Option.some.inj hvalue
    decide +kernel
  have htime (call : Peer.Call) : (c.receive network call).time = 3000 := by
    have hthere : (network call).time = 3000 := by simp only [network, Peer.Reply.time]
    rw [c.receive_of_time_lt (hthere ▸ by decide), hthere]
  have hlate : s.limit.seconds * 1000 <
      (Action.getPeerUser "7").time s.peer network (r.id "r-1") := by
    obtain ⟨u, hread⟩ : ∃ u, Net.Url.ofText? (c.url ("/users/" ++ "7")) = some u :=
      Option.isSome_iff_exists.1 (by decide +kernel)
    have hcall : c.call? ("/users/" ++ "7") (r.id "r-1") =
        some { method := "GET", url := u, requestId := r.id "r-1" } := by
      rw [PeerClient.call?, hread, Option.map_some]
    have htext : Net.Percent.decodeText? "7" = some "7" := by decide +kernel
    rw [Action.time_of_sends rfl ⟨"7", "7", c, rfl, htext, rfl, hcall⟩, htime]
    decide
  have htells : response.TellsFailure := by
    refine tellsFailure_of_isLocal (f := tooLate) trivial (by decide) (by decide) ?_
    rw [answer_of_resource network "r-1" {} hresource, if_pos hlate]
  have hown : ¬ s.PassesOn network "r-1" r := by
    rintro ⟨c', call, hpeer, -, -, hintime⟩
    obtain rfl := Option.some.inj hpeer
    rw [htime] at hintime
    exact absurd hintime (by decide)
  obtain ⟨-, hone, -⟩ := hasOneId_handle s network "r-1" {} r htells hown
  exact ⟨hvisible, htells, hown, hone hvisible⟩

/-- There need not be one id: this caller sends the two bytes of `é`, gets them back in the header,
and is told of a fresh id in the envelope. -/
theorem not_always_hasOneId :
    ¬ ∀ (s : Service) (network : Peer.Network) (fresh : String) (d : Directory) (r : Request),
      (s.handle network fresh d r).1.TellsFailure → ¬ s.PassesOn network fresh r →
        (s.handle network fresh d r).1.HasOneId r := by
  intro h
  let s : Service := {}
  let r : Request := { target := "/missing", headers := [⟨"x-request-id", [0xC3, 0xA9]⟩] }
  have hpath : s.resources r.path = [] := by decide
  have hresource : s.resource? r = none := by rw [resource?, hpath, List.find?_nil]
  have htells : (s.handle .silent "r-1" {} r).1.TellsFailure := by
    refine tellsFailure_of_isLocal (f := noRoute r.path) trivial (by decide) (by decide) ?_
    simp only [answer, hpath]
  have hown : ¬ s.PassesOn .silent "r-1" r := by
    refine not_passesOn fun resource hfound => ?_
    rw [hresource] at hfound
    cases hfound
  have hone := h s .silent "r-1" {} r htells hown
  obtain ⟨f, hlocal, heq⟩ := exists_handle_eq htells hown
  rw [heq, Response.hasOneId_ofFailure_iff hlocal] at hone
  exact absurd hone (by decide +kernel)

end Service

end Rest

end Chassis
