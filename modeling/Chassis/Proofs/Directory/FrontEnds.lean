import Chassis.Proofs.Directory.History
import Chassis.Proofs.Http.Values
import Chassis.Proofs.Rest.Envelopes
import Chassis.Proofs.Rpc.Messages
import Mathlib.Data.List.TakeWhile

/-!
# Two ways into one directory

> **a request over HTTP and a request over RPC that ask for the same do the same to the directory
> and tell the same of it** (`front_ends_agree`).

Each front end has a reader of its own, and each tells users and failures in a form of its own. What
lies between is one `Operation`, run on the directory as it is. So the proof goes in two halves that
never meet: what either front end answers is determined by the result of the operation, and a
failure that the directory comes to is told with the same code, message and records in both forms.
The only trace of the way in is the outermost operation on the stack.

Each front end refuses what is larger than it reads, a body over HTTP and a message over RPC
(`Rest.Service.handle_of_long_body`, `Rpc.handle_of_long_message`), and the limits are not the same.
So the theorem speaks of requests within them, and there is a user that only one of the two creates
(`not_front_ends_always_agree`).
-/

set_option autoImplicit false

namespace Chassis

open Text.Utf8

/-! ## What is asked -/

namespace Operation

/-- The name under which both front ends tell a failure. -/
def name : Operation → String
  | get _ => "get_user"
  | create _ => "create_user"

/-- The HTTP status of a success. -/
def status : Operation → Nat
  | get _ => 200
  | create _ => 201

end Operation

/-- The id consists of visible ASCII characters and spaces. -/
def Http.IsVisible (requestId : String) : Prop :=
  ∀ c ∈ requestId.toList, 0x20 ≤ c.toNat ∧ c.toNat < 0x7F

instance (requestId : String) : Decidable (Http.IsVisible requestId) :=
  List.decidableBAll (fun c : Char => 0x20 ≤ c.toNat ∧ c.toNat < 0x7F) requestId.toList

/-- What an HTTP request asks for: the user that its path names, or one with the name and the
address in its body. -/
inductive Http.Request.Asks (r : Http.Request) : Operation → Prop
  | get {segment id : String} (method : r.method = "GET") (path : r.path = "/users/" ++ segment)
      (nonempty : segment ≠ "") (single : '/' ∉ segment.toList)
      (text : Net.Percent.decodeText? segment = some id) : Asks r (.get id)
  | create {new : NewUser} (method : r.method = "POST") (path : r.path = "/users")
      (json : r.isJson = true) (body : NewUser.layout.decode r.body = .ok new) :
      Asks r (.create new)

/-- What an RPC request asks for: what the message in its body says. -/
inductive Rpc.Request.Asks (r : Rpc.Request) : Operation → Prop
  | get {message : List UInt8} {id : String} (method : r.method? = some .getUser)
      (body : r.body = writeFrame message) (read : readGet message = .ok id) : Asks r (.get id)
  | create {message : List UInt8} {new : NewUser} (method : r.method? = some .createUser)
      (body : r.body = writeFrame message) (read : readCreate message = .ok new) :
      Asks r (.create new)

/-! ## What is told -/

/-- What a caller is told of a failure. `own` is the record of its kind. -/
structure Told where
  code : Code
  message : String
  requestId : String
  stack : List String
  own : Detail

/-- The records that go with it. -/
def Told.records (t : Told) : List Detail :=
  [.request ⟨t.requestId, ""⟩, .debug ⟨t.stack, ""⟩, t.own]

/-- The response is the envelope of a failure, with the status that goes with its code. -/
def Http.Response.Tells (r : Http.Response) (t : Told) : Prop :=
  r.status = t.code.httpStatus ∧ Envelope.decode r.body =
    .ok ⟨t.code.httpStatus.toUInt16, t.message, t.code.token, t.records⟩

theorem Http.Response.tells_withHeader {r : Http.Response} {t : Told} (h : Header) :
    (r.withHeader h).Tells t ↔ r.Tells t := Iff.rfl

/-- The response is the status of a failure with the records in the order in which they are packed,
and whoever reads it finds them. -/
def Rpc.Response.Tells (r : Rpc.Response) (t : Told) : Prop :=
  r.body = [] ∧ ∃ records, records.Perm t.records ∧
    r.status = ⟨t.code, t.message, RpcStatus.statusBytes .ascending t.code t.message records⟩ ∧
    (r.status.details.length < 0x10000000000000000 → r.status.detailRecords = records)

def Http.Response.TellsUser (r : Http.Response) (status : Nat) (u : User) : Prop :=
  r.status = status ∧ User.layout.decode r.body = .ok u

theorem Http.Response.tellsUser_ofJson (status : Nat) (u : User) :
    (ofJson status (User.layout.encode u)).TellsUser status u := by
  refine ⟨rfl, ?_⟩
  rw [body_ofJson]
  exact Json.Layout.decode_encode User.layout rfl u

theorem Http.Response.tellsUser_withHeader {r : Http.Response} {status : Nat} {u : User}
    (h : Header) : (r.withHeader h).TellsUser status u ↔ r.TellsUser status u := Iff.rfl

/-- The response is the message of a user, and whoever reads as much as the front end makes the user
of it. -/
def Rpc.Response.TellsUser (r : Rpc.Response) (u : User) : Prop :=
  r.status = okStatus ∧ r.body = writeFrame (writeUser u) ∧
    ((writeUser u).length ≤ messageLimit → r.toResult = .ok u)

/-- The responses to an operation and the directories after it agree, and they are what comes of the
operation. -/
structure Agree (op : Operation) (requestId : String) (d : Directory)
    (rest : Http.Response × Directory) (rpc : Rpc.Response × Directory) : Prop where
  directory : rest.2 = (op.run d).2 ∧ rpc.2 = (op.run d).2
  success : ∀ u, (op.run d).1 = .ok u → rest.1.TellsUser op.status u ∧ rpc.1.TellsUser u
  failure : ∀ f, (op.run d).1 = .error f → (op.run d).2 = d ∧
    ∃ code message stack own, code ≠ .ok ∧ own.isOwn = true ∧
      rest.1.Tells ⟨code, message, requestId, ("rest." ++ op.name) :: stack, own⟩ ∧
      rpc.1.Tells ⟨code, message, requestId, ("rpc." ++ op.name) :: stack, own⟩

/-! ## Request ids -/

/-- An id that is visible is sent as a value that is. -/
theorem Http.IsVisible.isVisibleValue {requestId : String} (h : IsVisible requestId) :
    IsVisibleValue (encode requestId) := by
  have hbytes : encode requestId = requestId.toList.map fun c => c.toNat.toUInt8 :=
    encodeChars_of_ascii fun c hc => Nat.lt_of_lt_of_le (h c hc).2 (by decide)
  rw [hbytes]
  intro b hb
  obtain ⟨c, hc, rfl⟩ := List.mem_map.1 hb
  obtain ⟨hl, hh⟩ := h c hc
  have hbyte : c.toNat.toUInt8.toNat = c.toNat := toNat_toUInt8 (by omega)
  refine .inl ⟨?_, ?_⟩
  · rw [UInt8.le_iff_toNat_le, hbyte]
    exact hl
  · rw [UInt8.lt_iff_toNat_lt, hbyte]
    exact hh

/-! ## What comes of an operation -/

namespace Detail

/-- Nothing of the record is lost on its way through a status. -/
def IsKept (d : Detail) : Prop := canonical [d] = [d]

theorem isKept_badRequest (v : FieldViolation) (vs : List FieldViolation) :
    (badRequest (v :: vs)).IsKept := by
  rw [IsKept, ← RpcStatus.Packed.toDetails_ofDetails]
  rfl

/-- With the records about the request and the way it is only put in another order. -/
theorem IsKept.perm {own : Detail} (hown : own.isOwn = true) (hkept : own.IsKept)
    (req : RequestInfo) (way : DebugInfo) :
    (canonical [.request req, .debug way, own]).Perm [.request req, .debug way, own] := by
  rw [IsKept, ← RpcStatus.Packed.toDetails_ofDetails] at hkept
  rw [← RpcStatus.Packed.toDetails_ofDetails]
  -- Packing puts the way first and the request behind violations, but before a resource.
  have hlast : [Detail.debug way, .request req, own].Perm [.request req, .debug way, own] :=
    .swap ..
  have hmiddle : [Detail.debug way, own, .request req].Perm [.request req, .debug way, own] :=
    .trans (.cons _ (.swap ..)) hlast
  cases own with
  | request info | debug info => cases hown
  | other t v => cases hkept
  | resource info => exact hlast
  | error info => exact hmiddle
  | quota violations | precondition violations | badRequest violations =>
    cases violations with
    | nil => cases hkept
    | cons v vs => exact hmiddle

end Detail

namespace Failure

/-- The failure was raised here with a code of a failure, and has one record, about its kind. -/
structure IsOwn (f : Failure) (own : Detail) : Prop where
  code : f.canonicalCode ≠ .ok
  details : f.details = [own]
  isOwn : own.isOwn = true
  isKept : own.IsKept

/-- What is told of the failure. -/
def told (f : Failure) (requestId : String) (own : Detail) : Told :=
  ⟨f.canonicalCode, f.description, requestId, f.ops, own⟩

variable {f : Failure} {own : Detail}

theorem IsOwn.rendered (h : f.IsOwn own) (requestId : String) :
    f.rendered requestId = (f.told requestId own).records := by
  have hown : ∀ d ∈ f.details, d.isOwn = true := by
    rw [h.details]
    intro d hd
    obtain rfl := List.mem_singleton.1 hd
    exact h.isOwn
  have hmerge := Detail.merge_own f.ops requestId hown
  rw [h.details] at hmerge
  rw [Failure.rendered, h.details]
  exact hmerge

theorem IsOwn.isTellable (h : f.IsOwn own) : f.IsTellable := by
  intro t v hmem
  rw [h.details] at hmem
  obtain rfl := List.mem_singleton.1 hmem
  cases h.isKept

/-- **Both forms tell the same of a failure.** -/
theorem IsOwn.tells (h : f.IsOwn own) (requestId : String) :
    (Http.Response.ofFailure (f.toResponse requestId)).Tells (f.told requestId own) ∧
      (Rpc.Response.ofStatus (f.toStatus requestId)).Tells (f.told requestId own) := by
  constructor
  · refine ⟨?_, ?_⟩
    · rw [Http.Response.status_ofFailure]
      exact f.status_toResponse requestId
    · rw [Http.Response.body_ofFailure, decode_envelope_toResponse h.isTellable, ← h.rendered]
      rfl
  · have hpacked : (f.packed requestId).toDetails =
        Detail.canonical (f.told requestId own).records := by
      rw [toDetails_packed, ← h.rendered]
      rfl
    refine ⟨rfl, _, h.isKept.perm h.isOwn ⟨requestId, ""⟩ ⟨f.ops, ""⟩, ?_, fun hlen => ?_⟩
    · rw [Rpc.Response.ofStatus, toStatus]
      exact congrArg (fun records => RpcStatus.mk _ _ (RpcStatus.statusBytes _ _ _ records)) hpacked
    · exact (detailRecords_toStatus hlen).trans hpacked

/-- Under one more operation the same is told, but for the stack. -/
theorem IsOwn.under (h : f.IsOwn own) (op : String) : (f.under op).IsOwn own :=
  ⟨h.code, h.details, h.isOwn, h.isKept⟩

theorem told_under {op : String} (hop : op ≠ "") (requestId : String) :
    (f.under op).told requestId own =
      ⟨f.canonicalCode, f.description, requestId, op :: f.ops, own⟩ := by
  have hops : (f.under op).ops = op :: f.ops := by
    rw [Failure.under, ops_wrap]
    simp [Hop.names, hop]
  rw [told, hops]
  rfl

end Failure

namespace Directory

variable {d : Directory} {f : Failure}

theorem exists_isOwn_get {id : String} (h : d.get id = .error f) : ∃ own, f.IsOwn own := by
  rw [get] at h
  split at h
  · cases h
  · obtain rfl := Except.error.inj h
    have hcode : Code.notFound ≠ .ok := by decide
    exact ⟨_, hcode, rfl, rfl, rfl⟩

theorem exists_isOwn_create {new : NewUser} (h : d.create new = .error f) :
    ∃ own, f.IsOwn own := by
  rw [create] at h
  split at h
  · obtain rfl := Except.error.inj h
    have hcode : Code.invalidArgument ≠ .ok := by decide
    exact ⟨_, hcode, rfl, rfl, Detail.isKept_badRequest ..⟩
  · split at h
    · obtain rfl := Except.error.inj h
      have hcode : Code.alreadyExists ≠ .ok := by decide
      exact ⟨_, hcode, rfl, rfl, rfl⟩
    · cases h

end Directory

/-- **A failing operation leaves the directory as it is**, and its failure has one record. -/
theorem Operation.run_of_error {op : Operation} {d : Directory} {f : Failure}
    (h : (op.run d).1 = .error f) : (op.run d).2 = d ∧ ∃ own, f.IsOwn own := by
  refine ⟨run_eq_of_error h, ?_⟩
  cases op with
  | get id => exact Directory.exists_isOwn_get h
  | create new =>
    cases hcreate : d.create new with
    | ok result =>
      simp only [run, hcreate] at h
      cases h
    | error f' =>
      simp only [run, hcreate] at h
      obtain rfl := Except.error.inj h
      exact Directory.exists_isOwn_create hcreate

/-! ## The front end over HTTP -/

namespace Rest

/-- What a handler makes of the result of an operation. -/
def outcome (op : Operation) : Except Failure User → Outcome
  | .ok u =>
    match op with
    | .get _ => .found u
    | .create _ => .created u
  | .error f => .failed (f.under ("rest." ++ op.name))

namespace Service

variable {s : Service} {r : Http.Request} {op : Operation}

/-- The path of a user leads to the user and nowhere else. -/
theorem resources_user {segment : String} (hfree : ∀ l ∈ s.late, l.path ≠ "/users/" ++ segment)
    (hne : segment ≠ "") (hsingle : '/' ∉ segment.toList) :
    s.resources ("/users/" ++ segment) = [⟨.get, .getUser segment⟩] := by
  have hfixed : s.fixed.filter (·.1 == "/users/" ++ segment) = [] := by
    refine List.filter_eq_nil_iff.2 fun e he => ?_
    simp only [fixed, List.mem_cons, List.mem_map] at he
    rw [beq_iff_eq]
    rcases he with rfl | rfl | ⟨l, hl, rfl⟩
    · intro heq
      have heq : "/healthz".toList = ("/users/" ++ segment).toList := congrArg String.toList heq
      simp [String.toList_append] at heq
    · intro heq
      have heq : "/users".toList = ("/users/" ++ segment).toList := congrArg String.toList heq
      simp [String.toList_append] at heq
    · exact hfree l hl
  have hsplit : Text.splitText '/' ("/users/" ++ segment) = ["", "users", segment] := by
    have hsegment := Text.split_of_not_mem hsingle
    simp [Text.splitText, String.toList_append, Text.split, hsegment]
  rw [resources, hfixed]
  simp only [hsplit, withSegment, if_neg hne]

/-- The path of all users leads there. -/
theorem resources_users (hfree : ∀ l ∈ s.late, l.path ≠ "/users") :
    s.resources "/users" = [⟨.post, .createUser⟩] := by
  have hlate : (s.late.map fun l => (l.path, (⟨.get, .late l.delay⟩ : Resource))).filter
      (·.1 == "/users") = [] := by
    refine List.filter_eq_nil_iff.2 fun e he => ?_
    obtain ⟨l, hl, rfl⟩ := List.mem_map.1 he
    simpa using hfree l hl
  have hfixed : s.fixed.filter (·.1 == "/users") = [("/users", ⟨.post, .createUser⟩)] := by
    rw [fixed, List.filter_cons_of_neg (by decide), List.filter_cons_of_pos (by decide), hlate]
  rw [resources, hfixed]
  rfl

end Service

theorem run_getUser [Net.HostNames] {segment id : String}
    (htext : Net.Percent.decodeText? segment = some id) (peer : Option PeerClient)
    (network : Peer.Network) (d : Directory) (r : Http.Request) (requestId : String) :
    (Action.getUser segment).run peer network d r requestId =
      (outcome (.get id) ((Operation.get id).run d).1, ((Operation.get id).run d).2) := by
  simp only [Action.run, withText, htext, Operation.run]
  cases d.get id <;> rfl

theorem run_createUser [Net.HostNames] {new : NewUser} {r : Http.Request}
    (hread : readNewUser r = .ok new) (peer : Option PeerClient) (network : Peer.Network)
    (d : Directory) (requestId : String) :
    Action.createUser.run peer network d r requestId =
      (outcome (.create new) ((Operation.create new).run d).1,
        ((Operation.create new).run d).2) := by
  simp only [Action.run, create, hread, Operation.run]
  cases d.create new <;> rfl

namespace Service

variable {s : Service} {r : Http.Request} {op : Operation}

/-- What is posted under the path of all users is a user to create. -/
theorem resource?_of_post (hfree : ∀ l ∈ s.late, l.path ≠ r.path) (hmethod : r.method = "POST")
    (hpath : r.path = "/users") : s.resource? r = some ⟨.post, .createUser⟩ := by
  rw [hpath] at hfree
  rw [resource?, hpath, resources_users hfree, hmethod]
  rfl

/-- An HTTP request asks for the resource whose handler runs the operation. -/
theorem exists_resource_of_asks [Net.HostNames] (hfree : ∀ l ∈ s.late, l.path ≠ r.path)
    (hasks : r.Asks op) (hbody : r.method = "POST" → r.body.length ≤ bodyLimit) :
    ∃ resource, s.resource? r = some resource ∧
      (∀ network requestId, resource.action.time s.peer network requestId = 0) ∧
      ∀ network d requestId, resource.action.run s.peer network d r requestId =
        (outcome op (op.run d).1, (op.run d).2) := by
  cases hasks with
  | @get segment id method path nonempty single text =>
    rw [path] at hfree
    refine ⟨⟨.get, .getUser segment⟩, ?_, fun _ _ => rfl, fun network d =>
      run_getUser text s.peer network d r⟩
    rw [resource?, path, resources_user hfree nonempty single, method]
    rfl
  | @create new method path json body =>
    have hread : readNewUser r = .ok new := by
      rw [readNewUser, json, body, if_neg (Nat.not_lt.2 (hbody method))]
      rfl
    exact ⟨_, resource?_of_post hfree method path, fun _ _ => rfl, run_createUser hread s.peer⟩

/-- **An HTTP request does what it asks for**, within the limit on its body. -/
theorem handle_of_asks [Net.HostNames] (network : Peer.Network) (fresh : String)
    (d : Directory) (hfree : ∀ l ∈ s.late, l.path ≠ r.path) (hasks : r.Asks op)
    (hbody : r.method = "POST" → r.body.length ≤ bodyLimit) :
    s.handle network fresh d r =
      (((outcome op (op.run d).1).respond (r.id fresh)).withHeader
        ⟨"x-request-id", r.idValue fresh⟩, (op.run d).2) := by
  have hnothead : r.method ≠ "HEAD" := by
    cases hasks with
    | get method | create method =>
      rw [method]
      decide
  obtain ⟨resource, hresource, htime, hrun⟩ := exists_resource_of_asks hfree hasks hbody
  simp only [handle, answer_of_resource network fresh d hresource, htime, hrun, Nat.not_lt_zero,
    if_neg hnothead, ↓reduceIte]

/-- A body that is too long is refused, whatever it says. -/
theorem handle_of_long_body [Net.HostNames] (network : Peer.Network) (fresh : String)
    (d : Directory) (hfree : ∀ l ∈ s.late, l.path ≠ r.path) (hmethod : r.method = "POST")
    (hpath : r.path = "/users") (hlong : bodyLimit < r.body.length) :
    (s.handle network fresh d r).1.status = 400 ∧ (s.handle network fresh d r).2 = d := by
  have hread : ∃ reason, readNewUser r = .error reason := by
    cases hjson : r.isJson with
    | true => exact ⟨_, by rw [readNewUser, hjson, if_pos hlong]; rfl⟩
    | false => exact ⟨_, by rw [readNewUser, hjson]; rfl⟩
  obtain ⟨reason, hread⟩ := hread
  have hanswer : s.answer network fresh d r = ((Outcome.failed
      ((malformedBody reason).under "rest.create_user")).respond (r.id fresh), d) := by
    rw [answer_of_resource network fresh d (resource?_of_post hfree hmethod hpath)]
    simp only [Action.time, Nat.not_lt_zero, ↓reduceIte, Action.run, create, hread]
  refine ⟨?_, by simp only [handle, hanswer]⟩
  rw [status_handle, hanswer, Outcome.respond, Http.Response.status_ofFailure]
  exact Failure.status_toResponse _ (r.id fresh)

end Service

theorem tellsUser_respond (op : Operation) (u : User) (requestId : String) :
    ((outcome op (.ok u)).respond requestId).TellsUser op.status u := by
  cases op with
  | get id => exact Http.Response.tellsUser_ofJson 200 u
  | create new => exact Http.Response.tellsUser_ofJson 201 u

theorem tells_respond {f : Failure} {own : Detail} (h : f.IsOwn own) (op : Operation)
    (requestId : String) : ((outcome op (.error f)).respond requestId).Tells
      ⟨f.canonicalCode, f.description, requestId, ("rest." ++ op.name) :: f.ops, own⟩ := by
  have hop : "rest." ++ op.name ≠ "" := by simp
  rw [← Failure.told_under hop, outcome, Outcome.respond]
  exact ((h.under _).tells requestId).1

end Rest

/-! ## The front end over RPC -/

namespace Rpc

variable {r : Request} {op : Operation}

/-- **An RPC request does what it asks for**, within the limit on its message. -/
theorem handle_of_asks (fresh : String) (d : Directory) (hasks : r.Asks op)
    (hbody : r.body.length ≤ 5 + messageLimit) :
    handle fresh d r =
      (.ofResult ("rpc." ++ op.name) (r.id fresh) (op.run d).1, (op.run d).2) := by
  cases hasks with
  | @get message id method body read =>
    have hlimit : message.length ≤ messageLimit := by
      rw [body, length_writeFrame] at hbody
      omega
    simp only [handle, method, withMessage, body, readMessage_writeFrame hlimit read]
    rfl
  | @create message new method body read =>
    have hlimit : message.length ≤ messageLimit := by
      rw [body, length_writeFrame] at hbody
      omega
    simp only [handle, method, withMessage, body, readMessage_writeFrame hlimit read, answerCreate,
      Operation.run]
    cases d.create new <;> rfl

/-- A message that is too long is refused, whatever it says. -/
theorem handle_of_long_message (fresh : String) (d : Directory) (hmethod : r.method? ≠ none)
    {message : List UInt8} (hbody : r.body = writeFrame message)
    (hlong : messageLimit < message.length) (hlength : message.length < 0x100000000) :
    handle fresh d r = (.ofStatus (FrameFault.tooLong message.length).status, d) := by
  obtain ⟨method, hmethod⟩ := Option.ne_none_iff_exists'.1 hmethod
  cases method <;>
    simp only [handle, hmethod, withMessage, hbody, readMessage_of_long hlong hlength]

theorem tellsUser_ofResult (op : Operation) (requestId : String) (u : User) :
    (Response.ofResult ("rpc." ++ op.name) requestId (.ok u)).TellsUser u := by
  refine ⟨rfl, rfl, fun hlimit => ?_⟩
  have hread : readUser (writeUser u) = .ok u :=
    readUser_writeUser (Nat.lt_of_le_of_lt hlimit (by decide))
  have hmessage := readMessage_writeFrame hlimit hread
  simp only [Response.ofResult, Response.ofMessage, Response.toResult, Response.okStatus,
    ↓reduceIte, hmessage]

theorem tells_ofResult {f : Failure} {own : Detail} (h : f.IsOwn own) (op : Operation)
    (requestId : String) : (Response.ofResult ("rpc." ++ op.name) requestId (.error f)).Tells
      ⟨f.canonicalCode, f.description, requestId, ("rpc." ++ op.name) :: f.ops, own⟩ := by
  have hop : "rpc." ++ op.name ≠ "" := by simp
  rw [← Failure.told_under hop, Response.ofResult]
  exact ((h.under _).tells requestId).2

end Rpc

/-! ## Both -/

/-- Two requests that ask for the same operation under the same id. -/
structure Paired (s : Rest.Service) (op : Operation) (requestId : String) (r : Http.Request)
    (q : Rpc.Request) : Prop where
  /-- No late path stands in the way. -/
  free : ∀ l ∈ s.late, l.path ≠ r.path
  visible : Http.IsVisible requestId
  restAsks : r.Asks op
  restId : r.header? "x-request-id" = some (encode requestId)
  rpcAsks : q.Asks op
  rpcId : q.idValue = some (encode requestId)

/-- The requests are within what the front ends read: of a body over HTTP, and of a message over
RPC, which has five bytes of a frame before it. -/
def AreRead (r : Http.Request) (q : Rpc.Request) : Prop :=
  (r.method = "POST" → r.body.length ≤ Rest.bodyLimit) ∧ q.body.length ≤ 5 + Rpc.messageLimit

instance (r : Http.Request) (q : Rpc.Request) : Decidable (AreRead r q) :=
  inferInstanceAs (Decidable (_ ∧ _))

/-- **The front ends agree**: whatever is asked over HTTP and over RPC under the same id, within
what they read, does the same to the directory and is told the same. -/
theorem front_ends_agree [Net.HostNames] (s : Rest.Service) (network : Peer.Network)
    (fresh fresh' : String) (d : Directory) {op : Operation} {requestId : String}
    {r : Http.Request} {q : Rpc.Request} (h : Paired s op requestId r q) (hread : AreRead r q) :
    Agree op requestId d (s.handle network fresh d r) (Rpc.handle fresh' d q) := by
  have hid : r.id fresh = requestId := by
    rw [Http.Request.id, Http.Request.idValue, h.restId]
    exact congrArg (Option.getD · fresh) (Http.visibleText?_encode h.visible.isVisibleValue)
  have hid' : q.id fresh' = requestId := by
    rw [Rpc.Request.id, h.rpcId]
    exact congrArg (Option.getD · fresh') (Http.visibleText?_encode h.visible.isVisibleValue)
  rw [Rest.Service.handle_of_asks network fresh d h.free h.restAsks hread.1,
    Rpc.handle_of_asks fresh' d h.rpcAsks hread.2, hid, hid']
  constructor
  case directory => exact ⟨rfl, rfl⟩
  case success =>
    intro u hu
    rw [hu, Http.Response.tellsUser_withHeader]
    exact ⟨Rest.tellsUser_respond op u requestId, Rpc.tellsUser_ofResult op requestId u⟩
  case failure =>
    intro f hf
    obtain ⟨hsame, own, hown⟩ := Operation.run_of_error hf
    refine ⟨hsame, f.canonicalCode, f.description, f.ops, own, hown.code, hown.isOwn, ?_⟩
    rw [hf, Http.Response.tells_withHeader]
    exact ⟨Rest.tells_respond hown op requestId, Rpc.tells_ofResult hown op requestId⟩

/-- **Two directories stay in step** if one is asked over HTTP what the other is asked over RPC. -/
theorem directories_in_step [Net.HostNames] (s : Rest.Service) (network : Peer.Network)
    (fresh fresh' : String) (pairs : List (Http.Request × Rpc.Request))
    (h : ∀ p ∈ pairs, AreRead p.1 p.2 ∧ ∃ op requestId, Paired s op requestId p.1 p.2)
    (d : Directory) :
    pairs.foldl (fun d p => (s.handle network fresh d p.1).2) d =
      pairs.foldl (fun d p => (Rpc.handle fresh' d p.2).2) d := by
  induction pairs generalizing d with
  | nil => rfl
  | cons p pairs ih =>
    obtain ⟨hread, op, requestId, hpair⟩ := h p List.mem_cons_self
    have hrest : (s.handle network fresh d p.1).2 = (op.run d).2 := by
      rw [Rest.Service.handle_of_asks network fresh d hpair.free hpair.restAsks hread.1]
    have hrpc : (Rpc.handle fresh' d p.2).2 = (op.run d).2 := by
      rw [Rpc.handle_of_asks fresh' d hpair.rpcAsks hread.2]
    rw [List.foldl_cons, List.foldl_cons, hrest, hrpc]
    exact ih (fun p' hp' => h p' (List.mem_cons_of_mem p hp')) (op.run d).2

/-! ### Requests of callers -/

/-- A request over HTTP to create a user, with white space behind the body. -/
def Http.Request.forCreate (new : NewUser) (requestId : String) (spaces : Nat) : Http.Request :=
  { method := "POST", target := "/users"
    headers := [.ofText "content-type" "application/json", .ofText "x-request-id" requestId]
    body := encode (NewUser.layout.encode new) ++ List.replicate spaces 0x20 }

theorem Http.toLower_requestId : "x-request-id".toLower = "x-request-id" := by
  decide +kernel

/-- A request over HTTP for a user, with a segment of the path that stands for the id. -/
def Http.Request.forGet (segment requestId : String) : Http.Request :=
  { target := "/users/" ++ segment, headers := [.ofText "x-request-id" requestId] }

theorem Http.header?_forGet {segment requestId : String} :
    (Request.forGet segment requestId).header? "x-request-id" = some (encode requestId) := by
  simp [Request.header?, Request.forGet, Header.ofText, toLower_requestId]

/-- A segment without a query or a fragment is the end of the path. -/
theorem Http.path_forGet {segment requestId : String} (hquery : '?' ∉ segment.toList)
    (hfragment : '#' ∉ segment.toList) :
    (Request.forGet segment requestId).path = "/users/" ++ segment := by
  have hall : ∀ c ∈ "/users/".toList ++ segment.toList, (c != '?' && c != '#') = true := by
    intro c hc
    rcases List.mem_append.1 hc with hc | hc
    · have hfixed : ("/users/".toList.all fun c => c != '?' && c != '#') = true := by decide
      exact List.all_eq_true.1 hfixed c hc
    · rw [Bool.and_eq_true, bne_iff_ne, bne_iff_ne]
      exact ⟨fun h => hquery (h ▸ hc), fun h => hfragment (h ▸ hc)⟩
  have hwhole : pathOf ("/users/".toList ++ segment.toList) =
      "/users/".toList ++ segment.toList := by
    have hhead : ("/users/".toList ++ segment.toList).head? = some '/' := rfl
    rw [pathOf, List.takeWhile_eq_self_iff.2 hall, hhead]
    rfl
  rw [Request.path, Request.forGet, String.toList_append, hwhole, ← String.toList_append,
    String.ofList_toList]

theorem Http.header?_forCreate {new : NewUser} {requestId : String} {spaces : Nat} :
    (Request.forCreate new requestId spaces).header? "content-type" =
        some (encode "application/json") ∧
      (Request.forCreate new requestId spaces).header? "x-request-id" =
        some (encode requestId) := by
  have htype : "content-type".toLower = "content-type" := by decide +kernel
  simp [Request.header?, Request.forCreate, Header.ofText, htype, toLower_requestId]

theorem Http.isJson_forCreate {new : NewUser} {requestId : String} {spaces : Nat} :
    (Request.forCreate new requestId spaces).isJson = true := by
  have hjson : (((some (encode "application/json")).bind visibleText?).bind
      MediaType.ofText?).any MediaType.isJson = true := by decide +kernel
  rw [Request.isJson, header?_forCreate.1]
  exact hjson

theorem Http.path_forCreate {new : NewUser} {requestId : String} {spaces : Nat} :
    (Request.forCreate new requestId spaces).path = "/users" := by
  have hpath : String.ofList (pathOf "/users".toList) = "/users" := by decide
  exact hpath

theorem Rpc.method?_forCreate {new : NewUser} {requestId : String} :
    (Request.forCreate new requestId).method? = some .createUser := by
  have hpath : Method.ofPath? (String.ofList (Http.pathOf Method.createUser.path.toList)) =
      some .createUser := by decide
  exact hpath

theorem Rpc.method?_forGet {id requestId : String} :
    (Request.forGet id requestId).method? = some .getUser := by
  have hpath : Method.ofPath? (String.ofList (Http.pathOf Method.getUser.path.toList)) =
      some .getUser := by decide
  exact hpath

/-- What callers send over RPC asks for what they want, as long as it fits into memory. -/
theorem Rpc.asks_forGet {id requestId : String}
    (hlen : (writeGet id).length < 0x10000000000000000) :
    (Request.forGet id requestId).Asks (.get id) :=
  .get method?_forGet rfl (readGet_writeGet hlen)

theorem Rpc.asks_forCreate {new : NewUser} {requestId : String}
    (hlen : (writeCreate new).length < 0x10000000000000000) :
    (Request.forCreate new requestId).Asks (.create new) :=
  .create method?_forCreate rfl (readCreate_writeCreate hlen)

/-- The requests of callers that create the same user are a pair, however much white space there
is. -/
theorem paired_forCreate {new : NewUser} {requestId : String}
    (hlen : (Rpc.writeCreate new).length < 0x10000000000000000)
    (hvisible : Http.IsVisible requestId) (spaces : Nat) :
    Paired {} (.create new) requestId (.forCreate new requestId spaces)
      (.forCreate new requestId) where
  free := nofun
  visible := hvisible
  restAsks := .create rfl Http.path_forCreate Http.isJson_forCreate
    (NewUser.layout.decode_encode_append_spaces rfl new spaces)
  restId := Http.header?_forCreate.2
  rpcAsks := Rpc.asks_forCreate hlen
  rpcId := rfl

/-- So are those for a user, however the id is written in the path. -/
theorem paired_forGet {segment id requestId : String}
    (htext : Net.Percent.decodeText? segment = some id) (hne : segment ≠ "")
    (hslash : '/' ∉ segment.toList) (hquery : '?' ∉ segment.toList)
    (hfragment : '#' ∉ segment.toList) (hlen : (Rpc.writeGet id).length < 0x10000000000000000)
    (hvisible : Http.IsVisible requestId) :
    Paired {} (.get id) requestId (.forGet segment requestId) (.forGet id requestId) where
  free := nofun
  visible := hvisible
  restAsks := .get rfl (Http.path_forGet hquery hfragment) hne hslash htext
  restId := Http.header?_forGet
  rpcAsks := Rpc.asks_forGet hlen
  rpcId := rfl

/-- An address that is taken is refused in both places with the same record, and so is an id that
nobody has, which is written with a group in the path. -/
theorem front_ends_agree_taken :
    let d : Directory := ⟨[⟨"1", "Ada", "ada@example.com"⟩], 1⟩
    let new : NewUser := ⟨"Bob", "ada@example.com"⟩
    let r := Http.Request.forCreate new "r-1" 0
    let q := Rpc.Request.forCreate new "r-1"
    Paired {} (.create new) "r-1" r q ∧ AreRead r q ∧
      Agree (.create new) "r-1" d (({} : Rest.Service).handle .silent "x" d r)
        (Rpc.handle "y" d q) ∧
      (Rpc.handle "y" d q).1.status.code = .alreadyExists ∧
      Agree (.get "a b") "r-1" d
        (({} : Rest.Service).handle .silent "x" d (.forGet "a%20b" "r-1"))
        (Rpc.handle "y" d (.forGet "a b" "r-1")) ∧
      (Rpc.handle "y" d (.forGet "a b" "r-1")).1.status.code = .notFound := by
  intro d new r q
  have hpaired : Paired {} (.create new) "r-1" r q :=
    paired_forCreate (by decide) (by decide) 0
  have hread : AreRead r q := by decide
  have hget : Paired {} (.get "a b") "r-1" (.forGet "a%20b" "r-1") (.forGet "a b" "r-1") :=
    paired_forGet (by decide +kernel) (by decide) (by decide) (by decide) (by decide) (by decide)
      (by decide)
  exact ⟨hpaired, hread, front_ends_agree {} .silent "x" "y" d hpaired hread, by decide,
    front_ends_agree {} .silent "x" "y" d hget (by decide), by decide⟩

/-- Without the limits they need not agree: a body that is too long for its white space is refused
over HTTP, while over RPC the user is created. -/
theorem not_front_ends_always_agree :
    ¬ ∀ (s : Rest.Service) (network : Peer.Network) (fresh fresh' : String) (d : Directory)
        (op : Operation) (requestId : String) (r : Http.Request) (q : Rpc.Request),
      Paired s op requestId r q →
        Agree op requestId d (s.handle network fresh d r) (Rpc.handle fresh' d q) := by
  intro h
  let new : NewUser := ⟨"Ada", "ada@example.com"⟩
  let r := Http.Request.forCreate new "r-1" Rest.bodyLimit
  have hpaired : Paired {} (.create new) "r-1" r (.forCreate new "r-1") :=
    paired_forCreate (by decide) (by decide) Rest.bodyLimit
  have hagree := h {} .silent "x" "y" {} (.create new) "r-1" r _ hpaired
  have hlong : Rest.bodyLimit < r.body.length := by
    have hne : (encode (NewUser.layout.encode new)).length = 40 := by decide
    simp only [r, Http.Request.forCreate, List.length_append, List.length_replicate, hne]
    omega
  -- The user is created, but the status is not that of a success.
  obtain ⟨hstatus, -⟩ := (hagree.success ⟨"1", "Ada", "ada@example.com"⟩ (by decide)).1
  obtain ⟨hrefused, -⟩ := Rest.Service.handle_of_long_body .silent "x" {} hpaired.free rfl
    Http.path_forCreate hlong
  rw [hrefused] at hstatus
  cases hstatus

end Chassis
