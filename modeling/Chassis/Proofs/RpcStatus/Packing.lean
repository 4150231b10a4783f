import Chassis.Envelope
import Chassis.Proofs.Detail.Merge
import Chassis.Proofs.RpcStatus.Unpacking

/-!
# HTTP and RPC tell the same failure

> **the status of a failure says what its envelope says, up to what a status can hold**
> (`Failure.toStatus_agrees_with_envelope`).

Both renderings start from the merged records of the failure. The envelope lists them; a status
packs one record of each type. `Detail.canonical` is what is left of a list of records on the way
through a status, defined without a word about packing: of most types the last record, of those that
hold violations all of them together, of unknown types nothing. Packing a list and unpacking it
gives its canonical form, and a canonical list is its own canonical form.
-/

set_option autoImplicit false

namespace Chassis

/-! ## What a status can hold -/

namespace Detail

def resource? : Detail → Option ResourceInfo
  | resource info => some info
  | _ => none

def error? : Detail → Option ErrorInfo
  | error info => some info
  | _ => none

def quotas : Detail → List QuotaViolation
  | quota violations => violations
  | _ => []

def conditions : Detail → List PreconditionViolation
  | precondition violations => violations
  | _ => []

def fields : Detail → List FieldViolation
  | badRequest violations => violations
  | _ => []

/-- The last record of a type. -/
def last {α : Type} (pick : Detail → Option α) (make : α → Detail) (ds : List Detail) :
    Option Detail :=
  (ds.filterMap pick).getLast?.map make

/-- All violations of a type in one record, none if there are none. -/
def together {α : Type} (pick : Detail → List α) (make : List α → Detail) (ds : List Detail) :
    Option Detail :=
  if ds.flatMap pick = [] then none else some (make (ds.flatMap pick))

/-- What is left of records on their way through a status. -/
def canonical (ds : List Detail) : List Detail :=
  [last debug? debug ds, together quotas quota ds, last error? error ds,
    together conditions precondition ds, together fields badRequest ds, last request? request ds,
    last resource? resource ds].filterMap id

end Detail

namespace RpcStatus.Packed

open Detail

/-- One record after another is taken: the last one counts, violations are collected. -/
theorem foldl_add (ds : List Detail) (p : Packed) : ds.foldl add p =
    { debug := (ds.filterMap debug?).getLast?.or p.debug
      quota := p.quota ++ ds.flatMap quotas
      error := (ds.filterMap error?).getLast?.or p.error
      precondition := p.precondition ++ ds.flatMap conditions
      badRequest := p.badRequest ++ ds.flatMap fields
      request := (ds.filterMap request?).getLast?.or p.request
      resource := (ds.filterMap resource?).getLast?.or p.resource } := by
  induction ds generalizing p with
  | nil => simp
  | cons d ds ih =>
    rw [List.foldl_cons, ih (p.add d)]
    cases d <;> simp [add, debug?, quotas, error?, conditions, fields, request?, resource?,
      List.getLast?_cons, List.filterMap_cons]

/-- Packing a list and unpacking it gives its canonical form. -/
theorem toDetails_ofDetails (ds : List Detail) : (ofDetails ds).toDetails = canonical ds := by
  have hviolations : ∀ {α : Type} (make : List α → Detail) (vs : List α),
      violations make vs = if vs = [] then none else some (make vs) := by
    intro α make vs
    cases vs <;> rfl
  rw [ofDetails, foldl_add, canonical]
  simp only [toDetails, hviolations, together, last, Option.or_none, List.nil_append]

/-- No record of the packed ones is of a type that cannot be packed. -/
theorem isPackable_of_mem_toDetails {p : Packed} {d : Detail} (h : d ∈ p.toDetails) :
    IsPackable d := by
  rintro t v rfl
  have hviolations : ∀ {α : Type} {make : List α → Detail} {vs : List α},
      (∀ vs, make vs ≠ .other t v) → violations make vs ≠ some (.other t v) := by
    intro α make vs hmake he
    cases vs with
    | nil => cases he
    | cons w ws => exact hmake _ (Option.some.inj he)
  obtain ⟨o, ho, he⟩ := List.mem_filterMap.1 h
  obtain rfl : o = some (.other t v) := he
  simp only [List.mem_cons, List.not_mem_nil, or_false] at ho
  rcases ho with h | h | h | h | h | h | h
  · simp [eq_comm] at h
  · exact hviolations (by simp) h.symm
  · simp [eq_comm] at h
  · exact hviolations (by simp) h.symm
  · exact hviolations (by simp) h.symm
  · simp [eq_comm] at h
  · simp [eq_comm] at h

/-- Each part of the packed records stands for one record or for none, and the record gives the
part. -/
theorem toDetails_parts (p : Packed) : ofDetails p.toDetails = p ∧
    p.toDetails.filterMap debug? = p.debug.toList ∧
    p.toDetails.filterMap request? = p.request.toList := by
  obtain ⟨debug, quota, error, precondition, badRequest, request, resource⟩ := p
  cases debug <;> cases quota <;> cases error <;> cases precondition <;> cases badRequest <;>
    cases request <;> cases resource <;> exact ⟨rfl, rfl, rfl⟩

theorem ofDetails_toDetails (p : Packed) : ofDetails p.toDetails = p := p.toDetails_parts.1

/-! ### Merged records -/

variable {p : Packed} {way : DebugInfo} {req : RequestInfo}

theorem debug_ofDetails {ds : List Detail} (h : ds.filterMap debug? = [way]) :
    (ofDetails ds).debug = some way := by
  rw [ofDetails, foldl_add, h]
  rfl

theorem request_ofDetails {ds : List Detail} (h : ds.filterMap request? = [req]) :
    (ofDetails ds).request = some req := by
  rw [ofDetails, foldl_add, h]
  rfl

/-- Unpacked records are merged under the operations and the request of another place. -/
theorem merge_context_toDetails (hway : p.debug = some way) (hreq : p.request = some req)
    (ops : List String) (requestId : String) :
    merge (context ops requestId ++ p.toDetails) =
      .request ⟨overwrite requestId req.requestId, req.servingData⟩ ::
        .debug ⟨ops ++ way.stackEntries, way.detail⟩ :: p.toDetails.filter isOwn := by
  obtain ⟨-, hdebug, hrequest⟩ := p.toDetails_parts
  rw [hway] at hdebug
  rw [hreq] at hrequest
  exact merge_context ops requestId hdebug hrequest

/-- Where nothing is added to the way and the request has an id already, the records are packed
again as they were. -/
theorem ofDetails_merge_toDetails (hway : p.debug = some way) (hreq : p.request = some req)
    (hid : req.requestId ≠ "") (requestId : String) :
    ofDetails (merge (context [] requestId ++ p.toDetails)) = p := by
  rw [merge_context_toDetails hway hreq, overwrite_of_ne hid, List.nil_append]
  obtain ⟨debug, quota, error, precondition, badRequest, request, resource⟩ := p
  obtain rfl : debug = some way := hway
  obtain rfl : request = some req := hreq
  cases quota <;> cases error <;> cases precondition <;> cases badRequest <;> cases resource <;> rfl

end RpcStatus.Packed

namespace Detail

open RpcStatus

/-- **A canonical list is its own canonical form.** -/
theorem canonical_canonical (ds : List Detail) : canonical (canonical ds) = canonical ds := by
  rw [← Packed.toDetails_ofDetails ds, ← Packed.toDetails_ofDetails, Packed.ofDetails_toDetails]

/-- Merging requests loses no id. -/
theorem requestId_foldl_ne : ∀ (reqs : List RequestInfo) {start : RequestInfo},
    start.requestId ≠ "" → (reqs.foldl mergeRequest start).requestId ≠ ""
  | [], _, h => h
  | req :: reqs, start, h => by
    refine requestId_foldl_ne reqs ?_
    by_cases hid : req.requestId = ""
    · rw [mergeRequest, hid]
      exact h
    · rw [mergeRequest, overwrite_of_ne hid]
      exact hid

end Detail

/-! ## Failures -/

namespace Failure

open RpcStatus Wire

def packed (f : Failure) (requestId : String) : Packed := .ofDetails (f.rendered requestId)

/-- The records that are told by RPC are the canonical form of those that are told by HTTP. -/
theorem detailRecords_toStatus {f : Failure} {requestId : String} {order : EntryOrder}
    (hlen : (f.toStatus requestId order).details.length < 0x10000000000000000) :
    (f.toStatus requestId order).detailRecords = (f.packed requestId).toDetails := by
  have hread : readDetails (f.toStatus requestId order).details =
      .ok (f.packed requestId).toDetails :=
    readDetails_statusBytes (fun _ hd => Packed.isPackable_of_mem_toDetails hd) hlen
  rw [detailRecords, hread]

/-- What is packed is the canonical form of what the envelope tells. -/
theorem toDetails_packed (f : Failure) (requestId : String) :
    (f.packed requestId).toDetails = Detail.canonical (Envelope.ofFailure requestId f).details :=
  Packed.toDetails_ofDetails (f.rendered requestId)

/-- The packed record about the request has an id if the failure was told under one. -/
theorem request_packed (f : Failure) {requestId : String} (hid : requestId ≠ "") :
    ∃ req, (f.packed requestId).request = some req ∧ req.requestId ≠ "" := by
  refine ⟨_, Packed.request_ofDetails (Detail.filterMap_request?_merge _), ?_⟩
  refine Detail.requestId_foldl_ne (f.details.filterMap Detail.request?) ?_
  rw [Detail.mergeRequest, Detail.overwrite_of_ne hid]
  exact hid

/-- A status that is told again under any id packs what it packed. -/
theorem packed_ofStatus_toStatus {f : Failure} {requestId : String} {order : EntryOrder}
    (hid : requestId ≠ "")
    (hlen : (f.toStatus requestId order).details.length < 0x10000000000000000)
    (requestId' : String) :
    (ofStatus (f.toStatus requestId order)).packed requestId' = f.packed requestId := by
  obtain ⟨req, hreq, hid⟩ := f.request_packed hid
  have hrendered : (ofStatus (f.toStatus requestId order)).rendered requestId' =
      Detail.merge (Detail.context [] requestId' ++ (f.packed requestId).toDetails) := by
    rw [← detailRecords_toStatus hlen]
    rfl
  rw [packed, hrendered]
  have hway : (f.packed requestId).debug = some _ :=
    Packed.debug_ofDetails (Detail.filterMap_debug?_merge _)
  exact Packed.ofDetails_merge_toDetails hway hreq hid requestId'

/-- **The status of a failure says what its envelope says**, up to what a status can hold, and says
it again when it is told again. The bytes of the status are shorter than 2⁶⁴, as all bytes in memory
are. -/
theorem toStatus_agrees_with_envelope (f : Failure) (requestId : String) (order : EntryOrder)
    (hlen : (f.toStatus requestId order).details.length < 0x10000000000000000) :
    let envelope := Envelope.ofFailure requestId f
    let status := f.toStatus requestId order
    Code.ofToken? envelope.status = some status.code ∧
      status.message = envelope.message ∧
      (∃ records, statusMessage.readAll "Status" status.details =
        .ok (show Parts from ((status.code.number : Int), status.message, records, ()))) ∧
      status.detailRecords = Detail.canonical envelope.details ∧
      (∀ ds, Detail.canonical (Detail.canonical ds) = Detail.canonical ds) ∧
      (requestId ≠ "" → ∀ requestId' order',
        ((ofStatus status).toStatus requestId' order').detailRecords = status.detailRecords) := by
  intro envelope status
  have hrecords : status.detailRecords = (f.packed requestId).toDetails :=
    detailRecords_toStatus hlen
  refine ⟨f.canonicalCode.ofToken?_token, rfl, ⟨_, readAll_statusBytes hlen⟩,
    hrecords.trans (f.toDetails_packed requestId), Detail.canonical_canonical, ?_⟩
  intro hid requestId' order'
  have hpacked : (ofStatus status).packed requestId' = f.packed requestId :=
    packed_ofStatus_toStatus hid hlen requestId'
  -- The same records are told under the same code and message, so the bytes are as many.
  have hlen' : ((ofStatus status).toStatus requestId' order').details.length <
      0x10000000000000000 := by
    have hbytes : ((ofStatus status).toStatus requestId' order').details =
        statusBytes order' f.canonicalCode f.description
          ((ofStatus status).packed requestId').toDetails := rfl
    rw [hbytes, hpacked, length_statusBytes order' order]
    exact hlen
  rw [detailRecords_toStatus hlen', hpacked, hrecords]

/-- Violations are collected, and a record of a type that nobody knows is dropped. -/
theorem toStatus_agrees_with_envelope_quotas :
    let f := ofCause (.remote ⟨"too much", [.quota [⟨"calls", "per day"⟩],
      .other "acme.Trace" "[1]", .quota [⟨"calls", "per hour"⟩]]⟩)
      ⟨some "users.get", some .resourceExhausted⟩
    (f.toStatus "r-1" .ascending).details.length < 0x10000000000000000 ∧
      (f.toStatus "r-1" .ascending).detailRecords = [.debug ⟨["users.get"], ""⟩,
        .quota [⟨"calls", "per day"⟩, ⟨"calls", "per hour"⟩], .request ⟨"r-1", ""⟩] := by
  intro f
  have hlen : (f.toStatus "r-1" .ascending).details.length < 0x10000000000000000 := by
    decide +kernel
  obtain ⟨-, -, -, hrecords, -, -⟩ := toStatus_agrees_with_envelope f "r-1" .ascending hlen
  exact ⟨hlen, hrecords.trans (by decide +kernel)⟩

end Failure

end Chassis
