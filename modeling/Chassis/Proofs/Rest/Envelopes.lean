import Chassis.Proofs.Rest.Origins

/-!
# Which requests fail without an envelope

> **the response to a failing request tells the failure in an envelope, unless the path is known but
> not for the method, or the segment of the path is not text**
> (`Rest.Service.tellsFailure_handle_iff`).

A failure that a handler comes to is told in an envelope whatever it is: one that was raised here
has no record that came in as text, and one that a peer told has only records that were read, so
that they can be read again. So the question is which requests never get as far as a failure of
their own. Those are refused while a handler is looked for, with an empty body, or before the
handler is given its segment, with a line of text. A path that leads nowhere and a handler that
takes too long are refused as well, but by a failure.
-/

set_option autoImplicit false

namespace Chassis

open Http

/-! ## Failures that can be told -/

/-- The records of an envelope that was read were read themselves. -/
theorem Envelope.isDecoded_of_mem_details {body : List UInt8} {e : Envelope}
    (h : decode body = .ok e) {d : Detail} (hd : d ∈ e.details) : d.IsDecoded := by
  rw [decode] at h
  cases hread : shape.readDocument body with
  | error fault =>
    rw [hread] at h
    cases h
  | ok parts =>
    rw [hread] at h
    obtain rfl := Except.ok.inj h
    obtain ⟨texts, -, rfl⟩ := List.mem_map.1 hd
    exact Detail.isDecoded_decode texts.1 texts.2.1

namespace Failure

/-- The records that the root cause holds as text can be read back. -/
def IsTellable (f : Failure) : Prop :=
  ∀ t v, Detail.other t v ∈ f.details → (Detail.other t v).IsDecoded

/-- What was raised here has no record that came in as text, and what a peer told has the records
that were read from its envelope. -/
theorem HasOrigin.isTellable {f : Failure} {told : Prop} (h : f.HasOrigin told) :
    f.IsTellable := by
  intro t v hmem
  rcases h with hlocal | ⟨-, body, e, hread, hroot⟩
  · exact absurd rfl ((Cause.details_of_isLocal hlocal _ hmem).2 t v)
  · rw [details, hroot] at hmem
    exact Envelope.isDecoded_of_mem_details hread hmem

theorem isTellable_of_isLocal {f : Failure} (h : f.root.IsLocal) : f.IsTellable :=
  HasOrigin.isTellable (.inl h : f.HasOrigin False)

end Failure

/-! ## Responses that tell a failure -/

/-- The body of the response is an envelope with the status as its code, and whoever called makes
the failure of it that the envelope tells, under the operation of the call. -/
def Http.Response.TellsFailure (r : Response) : Prop :=
  ∃ e, Envelope.decode r.body = .ok e ∧ e.code.toNat = r.status ∧
    ∀ method url, Failure.ofResponse method url r.status r.body =
      some (.ofCause (.remote ⟨e.message, e.details⟩)
        ⟨some (method ++ " " ++ url), some e.canonicalCode⟩)

namespace Http.Response

variable {r : Response}

/-- Nobody makes a failure of a response below status 400. -/
theorem TellsFailure.le_status (h : r.TellsFailure) : 400 ≤ r.status := by
  obtain ⟨e, -, -, hmakes⟩ := h
  by_contra hlt
  have hnone : Failure.ofResponse "" "" r.status r.body = none := if_pos (Nat.not_le.1 hlt)
  rw [hmakes] at hnone
  cases hnone

theorem tellsFailure_congr {r' : Response} (hs : r.status = r'.status) (hb : r.body = r'.body) :
    r.TellsFailure ↔ r'.TellsFailure := by
  rw [TellsFailure, TellsFailure, hs, hb]

theorem not_tellsFailure_of_fault {fault : Json.Fault}
    (h : Envelope.decode r.body = .error fault) : ¬ r.TellsFailure := by
  rintro ⟨e, he, -⟩
  rw [h] at he
  cases he

theorem not_tellsFailure_of_empty (h : r.body = []) : ¬ r.TellsFailure :=
  not_tellsFailure_of_fault (congrArg Envelope.decode h)

theorem body_ofJson (status : Nat) (json : String) :
    (ofJson status json).body = Text.Utf8.encode json := by
  rw [ofJson]

theorem status_ofFailure (r : FailureResponse) : (ofFailure r).status = r.status := rfl

theorem body_ofFailure (r : FailureResponse) :
    (ofFailure r).body = Text.Utf8.encode r.envelope.encode := by
  rw [ofFailure, ofJson]

/-- The response of a failure that can be told tells it, if its status is one of a failure. -/
theorem tellsFailure_ofFailure {f : Failure} (hf : f.IsTellable) (requestId : String)
    (hs : 400 ≤ (f.toResponse requestId).status) :
    (ofFailure (f.toResponse requestId)).TellsFailure := by
  have htoken : (f.toResponse requestId).envelope.canonicalCode = f.canonicalCode :=
    f.canonicalCode.ofToken_token
  rw [TellsFailure, body_ofFailure, status_ofFailure]
  refine ⟨_, Failure.decode_envelope_toResponse hf, rfl, fun method url => ?_⟩
  rw [htoken]
  exact Failure.ofResponse_envelope f requestId method url (Nat.not_lt.2 hs) hf

end Http.Response

/-! ## Handlers -/

namespace Rest

namespace Action

/-- The segment of the path that a handler is given. -/
def segment? : Action → Option String
  | getUser segment | getPeerUser segment => some segment
  | health | createUser | late _ => none

end Action

/-- A segment that is not text is told in words only; any other failure is told in an envelope. -/
theorem Outcome.tellsFailure_respond_iff {o : Outcome} (ho : ∀ f, o = .failed f → f.IsTellable)
    (requestId : String) :
    (o.respond requestId).TellsFailure ↔
      400 ≤ (o.respond requestId).status ∧ o ≠ .malformedSegment := by
  constructor
  · intro h
    refine ⟨h.le_status, ?_⟩
    rintro rfl
    exact Response.not_tellsFailure_of_fault rfl h
  · rintro ⟨hs, hsegment⟩
    cases o with
    | failed f => exact Response.tellsFailure_ofFailure (ho f rfl) requestId hs
    | malformedSegment => exact absurd rfl hsegment
    | healthy | late | found u => exact absurd hs (by decide : ¬ 400 ≤ 200)
    | created u => exact absurd hs (by decide : ¬ 400 ≤ 201)

namespace Action

variable {action : Action} {peer : Option PeerClient} {network : Peer.Network} {d : Directory}
  {r : Request} {requestId : String}

theorem withText_eq_malformedSegment_iff {segment op : String}
    {result : String → Except Failure User} :
    withText segment (fun id => .ofResult op (result id)) = .malformedSegment ↔
      Net.Percent.decodeText? segment = none := by
  rw [withText]
  cases Net.Percent.decodeText? segment with
  | none => exact iff_of_true rfl rfl
  | some id =>
    refine iff_of_false (fun h => ?_) (fun h => by cases h)
    simp only at h
    cases hresult : result id with
    | ok u =>
      rw [hresult] at h
      cases h
    | error f =>
      rw [hresult] at h
      cases h

/-- A handler is not run if it has a segment that is not text. -/
theorem run_eq_malformedSegment_iff [Net.HostNames] :
    (action.run peer network d r requestId).1 = .malformedSegment ↔
      ∃ segment, action.segment? = some segment ∧ Net.Percent.decodeText? segment = none := by
  have hnone (h : action.segment? = none) :
      ¬ ∃ segment, action.segment? = some segment ∧ Net.Percent.decodeText? segment = none := by
    rintro ⟨segment, hsegment, -⟩
    rw [h] at hsegment
    cases hsegment
  cases action with
  | health => exact iff_of_false (fun h => by cases h) (hnone rfl)
  | late delay => exact iff_of_false (fun h => by cases h) (hnone rfl)
  | createUser =>
    refine iff_of_false (fun h => ?_) (hnone rfl)
    simp only [run, create] at h
    split at h
    · cases h
    · split at h <;> cases h
  | getUser segment | getPeerUser segment =>
    simp only [segment?, Option.some.injEq, exists_eq_left']
    exact withText_eq_malformedSegment_iff

end Action

/-! ## Requests -/

namespace Service

variable (s : Service) (network : Peer.Network) (fresh : String) (d : Directory) (r : Request)

/-- The resource that a request asks for. -/
def resource? : Option Resource :=
  (s.resources r.path).find? (·.verb.methods.contains r.method)

/-- The path is known, but not for the method of the request. -/
def LacksMethod : Prop := s.resources r.path ≠ [] ∧ s.resource? r = none

/-- The request asks for a resource with a segment that is not text. -/
def HasMalformedSegment : Prop :=
  ∃ resource segment, s.resource? r = some resource ∧ resource.action.segment? = some segment ∧
    Net.Percent.decodeText? segment = none

theorem HasMalformedSegment.not_lacksMethod {s : Service} {r : Request}
    (h : s.HasMalformedSegment r) : ¬ s.LacksMethod r := by
  obtain ⟨resource, segment, hfound, -⟩ := h
  rintro ⟨-, hnone⟩
  rw [hnone] at hfound
  cases hfound

section Answers

variable [Net.HostNames]

/-- The call that is made to answer a request. -/
def Sends (call : Peer.Call) : Prop :=
  ∃ resource, s.resource? r = some resource ∧ resource.action.Sends s.peer (r.id fresh) call

/-- The peer's reply to the call tells a failure in an envelope, which is passed on: all of it is
there in time, both for the client and for the limit of the service. -/
def PassesOn : Prop :=
  ∃ c call, s.peer = some c ∧ s.Sends fresh r call ∧ (c.receive network call).TellsEnvelope ∧
    (c.receive network call).time ≤ s.limit.seconds * 1000

/-- How a request is answered that asks for a resource. -/
theorem answer_of_resource {s : Service} {r : Request} {resource : Resource}
    (h : s.resource? r = some resource) :
    s.answer network fresh d r =
      if s.limit.seconds * 1000 < resource.action.time s.peer network (r.id fresh) then
        ((Outcome.failed tooLate).respond (r.id fresh), d)
      else
        let (outcome, d) := resource.action.run s.peer network d r (r.id fresh)
        (outcome.respond (r.id fresh), d) := by
  rw [resource?] at h
  rw [answer]
  split
  case h_1 hpath =>
    rw [hpath] at h
    cases h
  case h_2 => rw [h]

theorem answer_of_lacksMethod {s : Service} {r : Request} (h : s.LacksMethod r) :
    s.answer network fresh d r =
      (.notAllowed ((s.resources r.path).flatMap (·.verb.methods)), d) := by
  obtain ⟨hpath, hmethod⟩ := h
  rw [resource?] at hmethod
  rw [answer]
  split
  case h_1 hnone => exact absurd hnone hpath
  case h_2 => rw [hmethod]

/-- A handler that takes any time has no segment, or one that is text. -/
theorem decodeText?_of_time {action : Action} {peer : Option PeerClient}
    {requestId segment : String} (h : 0 < action.time peer network requestId)
    (hsegment : action.segment? = some segment) :
    Net.Percent.decodeText? segment ≠ none := by
  intro hnone
  cases action with
  | health | createUser | late delay => cases hsegment
  | getUser segment' => cases h
  | getPeerUser segment' =>
    obtain rfl := Option.some.inj hsegment
    simp only [Action.time, hnone] at h
    exact Nat.lt_irrefl 0 h

/-- Any other request comes to an outcome. -/
theorem answer_of_not_lacksMethod {s : Service} {r : Request} (h : ¬ s.LacksMethod r) :
    ∃ (o : Outcome) (d' : Directory), s.answer network fresh d r = (o.respond (r.id fresh), d') ∧
      (∀ f, o = .failed f → f.HasOrigin (s.PassesOn network fresh r)) ∧
      (o = .malformedSegment ↔ s.HasMalformedSegment r) := by
  cases hresource : s.resource? r with
  | none =>
    have hpath : s.resources r.path = [] := by
      by_contra hpath
      exact h ⟨hpath, hresource⟩
    refine ⟨.failed (noRoute r.path), d, ?_, ?_, iff_of_false nofun ?_⟩
    · simp only [answer, hpath]
    · intro f hf
      obtain rfl := Outcome.failed.inj hf
      exact .inl trivial
    · rintro ⟨resource, segment, hfound, -⟩
      rw [hresource] at hfound
      cases hfound
  | some resource =>
    have hmalformed : s.HasMalformedSegment r ↔ ∃ segment,
        resource.action.segment? = some segment ∧ Net.Percent.decodeText? segment = none := by
      simp only [HasMalformedSegment, hresource, Option.some.injEq, exists_and_left,
        exists_eq_left']
    rw [answer_of_resource network fresh d hresource, hmalformed]
    split
    case isTrue hlate =>
      refine ⟨.failed tooLate, d, rfl, ?_, iff_of_false nofun ?_⟩
      · intro f hf
        obtain rfl := Outcome.failed.inj hf
        exact .inl trivial
      · rintro ⟨segment, hsegment, hnone⟩
        exact decodeText?_of_time network (Nat.zero_lt_of_lt hlate) hsegment hnone
    case isFalse htime =>
      refine ⟨_, _, rfl, fun f hf => ?_, Action.run_eq_malformedSegment_iff⟩
      refine (Action.hasOrigin_run hf).imp ?_
      rintro ⟨c, call, hpeer, hsends, htells⟩
      rw [Action.time_of_sends hpeer hsends] at htime
      exact ⟨c, call, hpeer, ⟨resource, hresource, hsends⟩, htells, Nat.not_lt.1 htime⟩

theorem tellsFailure_answer_iff :
    (s.answer network fresh d r).1.TellsFailure ↔
      400 ≤ (s.answer network fresh d r).1.status ∧
        ¬ s.LacksMethod r ∧ ¬ s.HasMalformedSegment r := by
  by_cases hmethod : s.LacksMethod r
  · rw [answer_of_lacksMethod network fresh d hmethod]
    exact iff_of_false (Response.not_tellsFailure_of_empty rfl) fun h => h.2.1 hmethod
  · obtain ⟨o, d', hanswer, horigin, hmalformed⟩ :=
      answer_of_not_lacksMethod network fresh d hmethod
    have htellable : ∀ f, o = .failed f → f.IsTellable := fun f hf => (horigin f hf).isTellable
    rw [hanswer, Outcome.tellsFailure_respond_iff htellable, Ne, hmalformed]
    simp only [hmethod, not_false_eq_true, true_and]

theorem status_handle :
    (s.handle network fresh d r).1.status = (s.answer network fresh d r).1.status := by
  by_cases h : r.method = "HEAD"
  · simp only [handle, if_pos h, Response.withoutBody, Response.withHeader]
  · simp only [handle, if_neg h, Response.withHeader]

theorem body_handle (h : r.method ≠ "HEAD") :
    (s.handle network fresh d r).1.body = (s.answer network fresh d r).1.body := by
  simp only [handle, if_neg h, Response.withHeader]

theorem body_handle_head (h : r.method = "HEAD") : (s.handle network fresh d r).1.body = [] := by
  simp only [handle, if_pos h, Response.withoutBody]

/-- A response with its body tells a failure as the answer does. -/
theorem tellsFailure_handle (h : r.method ≠ "HEAD") :
    (s.handle network fresh d r).1.TellsFailure ↔ (s.answer network fresh d r).1.TellsFailure :=
  Response.tellsFailure_congr (status_handle s network fresh d r)
    (body_handle s network fresh d r h)

/-- **A failing request is answered with an envelope unless the path is known but not for the
method, or the segment of the path is not text.** The envelope has the status as its code, and
whoever called makes the failure of it that it tells. Without an envelope, the response has no body
or is a line of text. -/
theorem tellsFailure_handle_iff (s : Service) (network : Peer.Network) (fresh : String)
    (d : Directory) (r : Request) :
    let response := (s.handle network fresh d r).1
    (response.TellsFailure ↔ r.method ≠ "HEAD" ∧ 400 ≤ response.status ∧
        ¬ s.LacksMethod r ∧ ¬ s.HasMalformedSegment r) ∧
      (s.LacksMethod r → response.status = 405 ∧ response.body = []) ∧
      (s.HasMalformedSegment r → response.status = 400 ∧
        (r.method ≠ "HEAD" →
          response.body = Text.Utf8.encode "Invalid URL: Invalid UTF-8 in `id`")) := by
  intro response
  refine ⟨?_, fun hmethod => ?_, fun hsegment => ?_⟩
  · by_cases hhead : r.method = "HEAD"
    · exact iff_of_false
        (Response.not_tellsFailure_of_empty (body_handle_head s network fresh d r hhead))
        fun h => h.1 hhead
    · rw [tellsFailure_handle s network fresh d r hhead, tellsFailure_answer_iff, ← status_handle]
      exact (and_iff_right hhead).symm
  · have hanswer := answer_of_lacksMethod network fresh d hmethod
    refine ⟨by rw [status_handle, hanswer]; rfl, ?_⟩
    by_cases hhead : r.method = "HEAD"
    · exact body_handle_head s network fresh d r hhead
    · rw [body_handle s network fresh d r hhead, hanswer]
      rfl
  · obtain ⟨o, d', hanswer, -, hmalformed⟩ :=
      answer_of_not_lacksMethod network fresh d hsegment.not_lacksMethod
    rw [hmalformed.2 hsegment] at hanswer
    refine ⟨by rw [status_handle, hanswer]; rfl, fun hhead => ?_⟩
    rw [body_handle s network fresh d r hhead, hanswer]
    rfl

end Answers

/-- Not every failing request is answered with an envelope: the segment of this one is the byte
`FF`, which begins no character. -/
theorem not_always_tellsFailure :
    ¬ ∀ (s : Service) (network : Peer.Network) (fresh : String) (d : Directory) (r : Request),
      r.method ≠ "HEAD" → 400 ≤ (s.handle network fresh d r).1.status →
        (s.handle network fresh d r).1.TellsFailure := by
  intro h
  have htells := h {} .silent "r-1" {} { target := "/users/%FF" } (by decide) (by decide)
  exact Response.not_tellsFailure_of_fault rfl htells

end Service

end Rest

end Chassis
