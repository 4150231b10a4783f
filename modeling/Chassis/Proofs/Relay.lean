import Chassis.Proofs.Envelope.RoundTrip
import Chassis.Proofs.RpcStatus.Packing

/-!
# A failure on its way through several instances

> **a failure that is relayed over any number of hops keeps its code and its message, and its
> records tell the whole way** (`relay_carries`).

On a hop an instance tells its failure to a caller, over HTTP or over RPC, and the caller makes a
failure of its own of it and labels it with operations. `Carries` is the invariant: it ties what the
current failure shows to the failure at the start and to the hops so far. The labels of a hop are in
the layers of the current failure until the next hop moves them into the records of its root, so the
invariant speaks of what is shown and not of where it is kept. One hop preserves it whichever
protocol it uses, and a relay is one hop after another.

An RPC hop may lose or join records of its own (a list of violations that is empty, a type that
occurs twice), so only over HTTP alone do the other records stay as they were.
-/

set_option autoImplicit false

namespace Chassis

open RpcStatus Wire

/-! ## Hops -/

/-- How a failure gets from an instance to its caller. An HTTP response may come under any status
that tells a failure. -/
inductive Transport
  | http (method url : String) (status : Nat) (failing : 400 ≤ status)
  | rpc (order : EntryOrder)

/-- The failure that the caller makes of what it is told. -/
def Transport.deliver (transport : Transport) (requestId : String) (f : Failure) :
    Option Failure :=
  match transport with
  | .http method url status _ =>
    Failure.ofResponse method url status
      (Text.Utf8.encode (f.toResponse requestId).envelope.encode)
  | .rpc order => some (.ofStatus (f.toStatus requestId order))

/-- A failure under layers that carry operations only, the outermost first. -/
def Failure.labelled (labels : List (Option String)) (f : Failure) : Failure :=
  labels.foldr (fun op f => f.wrap ⟨op, none⟩) f

/-- One hop: the request under which the failure is told, how it is told, and the layers that the
caller puts around it, the outermost first. -/
structure Hop where
  requestId : String
  transport : Transport
  labels : List (Option String)

namespace Hop

/-- The failure of the caller. -/
def run (hop : Hop) (f : Failure) : Option Failure :=
  (hop.transport.deliver hop.requestId f).map (·.labelled hop.labels)

def names (labels : List (Option String)) : List String :=
  (labels.filterMap id).filter (· != "")

/-- The operations that the hop adds to the way, the outermost first. -/
def ops (hop : Hop) : List String :=
  names hop.labels ++
    match hop.transport with
    | .http method url _ _ => [method ++ " " ++ url]
    | .rpc _ => []

def IsHttp (hop : Hop) : Prop := ∃ method url status h, hop.transport = .http method url status h

/-- The bytes of a status that is told on the hop are shorter than 2⁶⁴, as all bytes in memory
are. -/
def Fits (hop : Hop) (f : Failure) : Prop :=
  ∀ order, hop.transport = .rpc order →
    (f.toStatus hop.requestId order).details.length < 0x10000000000000000

end Hop

/-- The failure at the end of some hops, the earliest first. -/
def relay : List Hop → Failure → Option Failure
  | [], f => some f
  | hop :: hops, f => (hop.run f).bind (relay hops)

/-- Every status that is told on the way fits. -/
def RelayFits : List Hop → Failure → Prop
  | [], _ => True
  | hop :: hops, f => hop.Fits f ∧ ∀ g, hop.run f = some g → RelayFits hops g

/-- The id of the earliest hop that has one, or another one if there is none. -/
def firstId (hops : List Hop) (requestId : String) : String :=
  ((hops.map (·.requestId)).find? (· != "")).getD requestId

def Cause.IsLocal : Cause → Prop
  | .kind _ => True
  | .interrupted _ => True
  | .other _ => True
  | .status _ => False
  | .remote _ => False

/-! ## Labels -/

namespace Failure

/-- A layer without a code adds its operation and nothing else. -/
theorem ops_wrap (f : Failure) (op : Option String) :
    (f.wrap ⟨op, none⟩).ops = Hop.names [op] ++ f.ops := by
  cases op with
  | none => rfl
  | some name =>
    by_cases h : name = "" <;> simp [ops, layers, wrap, Hop.names, h]

theorem canonicalCode_wrap (f : Failure) (op : Option String) :
    (f.wrap ⟨op, none⟩).canonicalCode = f.canonicalCode := rfl

theorem labelled_spec (labels : List (Option String)) (f : Failure) :
    (f.labelled labels).ops = Hop.names labels ++ f.ops ∧
      (f.labelled labels).canonicalCode = f.canonicalCode ∧
      (f.labelled labels).root = f.root := by
  induction labels with
  | nil => exact ⟨rfl, rfl, rfl⟩
  | cons op labels ih =>
    obtain ⟨hops, hcode, hroot⟩ := ih
    refine ⟨?_, (Failure.canonicalCode_wrap _ op).trans hcode, hroot⟩
    have hnames : Hop.names (op :: labels) = Hop.names [op] ++ Hop.names labels := by
      rw [Hop.names, Hop.names, Hop.names, ← List.filter_append, ← List.filterMap_append]
      rfl
    calc ((f.labelled labels).wrap ⟨op, none⟩).ops
      _ = Hop.names [op] ++ (f.labelled labels).ops := ops_wrap _ op
      _ = Hop.names (op :: labels) ++ f.ops := by rw [hops, hnames, List.append_assoc]

end Failure

/-! ## The invariant -/

/-- What a failure shows after some hops from another one: its code and its message, and under any
id the id of the earliest hop that has one, the whole way with the last hop first, and other records
that are those of the start if all hops went over HTTP. -/
structure Carries (start : Failure) (hops : List Hop) (f : Failure) : Prop where
  code : f.canonicalCode = start.canonicalCode
  description : f.description = start.description
  records : ∃ own, (∀ requestId, f.rendered requestId =
      .request ⟨firstId hops requestId, ""⟩ ::
        .debug ⟨hops.reverse.flatMap Hop.ops ++ start.ops, ""⟩ :: own) ∧
    (∀ d ∈ own, d.isOwn = true ∧ IsPackable d) ∧
    ((∀ hop ∈ hops, hop.IsHttp) → own = start.details)

/-- The id of one more hop counts if no earlier hop has one. -/
theorem firstId_append (hops : List Hop) (hop : Hop) (requestId : String) :
    firstId (hops ++ [hop]) requestId =
      Detail.overwrite requestId (firstId hops hop.requestId) := by
  rw [firstId, firstId, List.map_append, List.find?_append]
  cases h : (hops.map (·.requestId)).find? (· != "") with
  | some id =>
    have hid : id ≠ "" := by simpa using List.find?_some h
    simp only [Option.some_or, Option.getD_some]
    exact (Detail.overwrite_of_ne hid).symm
  | none =>
    by_cases hid : hop.requestId = ""
    · simp [hid, Detail.overwrite]
    · simp [hid, Detail.overwrite]

/-- A failure that was raised here has one record, of the type of its root. -/
theorem Cause.details_of_isLocal {root : Cause} (h : root.IsLocal) :
    ∀ d ∈ root.details, d.isOwn = true ∧ IsPackable d := by
  intro d hd
  cases root with
  | kind k =>
    obtain rfl := List.mem_singleton.1 hd
    cases k <;> exact ⟨rfl, fun t v he => by cases he⟩
  | interrupted i =>
    obtain rfl := List.mem_singleton.1 hd
    exact ⟨rfl, fun t v he => by cases he⟩
  | other text =>
    obtain rfl := List.mem_singleton.1 hd
    exact ⟨rfl, fun t v he => by cases he⟩
  | status s => exact h.elim
  | remote r => exact h.elim

/-- At the start nothing has happened yet. -/
theorem Carries.start {start : Failure} (h : start.root.IsLocal) : Carries start [] start where
  code := rfl
  description := rfl
  records := by
    have hdetails := Cause.details_of_isLocal h
    exact ⟨start.details,
      fun requestId => Detail.merge_own start.ops requestId fun d hd => (hdetails d hd).1,
      hdetails, fun _ => rfl⟩

namespace Carries

variable {start f : Failure} {hops : List Hop}

/-- No record has come in as text on the way. -/
theorem other_not_mem (h : Carries start hops f) (t v : String) :
    Detail.other t v ∉ f.details := by
  intro hmem
  obtain ⟨own, hrendered, hown, -⟩ := h.records
  have hmem : Detail.other t v ∈ (f.rendered "").filter Detail.isOwn := by
    rw [Failure.rendered, Detail.filter_isOwn_merge]
    exact List.mem_filter.2 ⟨by simp [hmem], rfl⟩
  rw [hrendered] at hmem
  have hmem : Detail.other t v ∈ own := by simpa using (List.mem_filter.1 hmem).1
  exact (hown _ hmem).2 t v rfl

/-- What a failure shows whose root holds records that were merged before. -/
theorem rendered_labelled {labels : List (Option String)} {g : Failure} {way : DebugInfo}
    {req : RequestInfo} (hway : g.details.filterMap Detail.debug? = [way])
    (hreq : g.details.filterMap Detail.request? = [req]) (requestId : String) :
    (g.labelled labels).rendered requestId =
      .request ⟨Detail.overwrite requestId req.requestId, req.servingData⟩ ::
        .debug ⟨Hop.names labels ++ g.ops ++ way.stackEntries, way.detail⟩ ::
          g.details.filter Detail.isOwn := by
  obtain ⟨hops, -, hroot⟩ := Failure.labelled_spec labels g
  have hdetails : (g.labelled labels).details = g.details := by
    rw [Failure.details, hroot, Failure.details]
  rw [← hops, ← Detail.merge_context _ requestId hway hreq, ← hdetails]
  rfl

/-- One hop keeps what the failure shows if the root of the caller's failure holds the records that
were told. -/
theorem hop {hop : Hop} {g : Failure} (hcode : g.canonicalCode = start.canonicalCode)
    (hdescription : g.description = start.description)
    (hops' : hop.ops = Hop.names hop.labels ++ g.ops)
    (hway : g.details.filterMap Detail.debug? =
      [⟨hops.reverse.flatMap Hop.ops ++ start.ops, ""⟩])
    (hreq : g.details.filterMap Detail.request? = [⟨firstId hops hop.requestId, ""⟩])
    (hpackable : ∀ d ∈ g.details, IsPackable d)
    (hhttp : (∀ h ∈ hops ++ [hop], h.IsHttp) → g.details.filter Detail.isOwn = start.details) :
    Carries start (hops ++ [hop]) (g.labelled hop.labels) := by
  obtain ⟨-, hcode', hroot⟩ := Failure.labelled_spec hop.labels g
  refine ⟨hcode'.trans hcode, ?_, g.details.filter Detail.isOwn, ?_, ?_, hhttp⟩
  · rw [Failure.description, hroot]
    exact hdescription
  · intro requestId
    rw [rendered_labelled hway hreq, firstId_append, List.reverse_append, ← hops']
    simp only [List.reverse_cons, List.reverse_nil, List.nil_append, List.singleton_append,
      List.flatMap_cons, List.append_assoc]
  · intro d hd
    exact ⟨Detail.isOwn_of_mem hd, hpackable d (List.mem_filter.1 hd).1⟩

/-- What is told of the failure under an id: one record about the way, one about the request, and
none that came in as text. -/
theorem told (h : Carries start hops f) (requestId : String) :
    (f.rendered requestId).filterMap Detail.debug? =
        [⟨hops.reverse.flatMap Hop.ops ++ start.ops, ""⟩] ∧
      (f.rendered requestId).filterMap Detail.request? = [⟨firstId hops requestId, ""⟩] ∧
      ∀ d ∈ f.rendered requestId, IsPackable d := by
  obtain ⟨own, hrendered, hown, -⟩ := h.records
  have hall : own.filter Detail.isOwn = own := List.filter_eq_self.2 fun d hd => (hown d hd).1
  have hway : own.filterMap Detail.debug? = [] := hall ▸ Detail.filterMap_debug?_own own
  have hreq : own.filterMap Detail.request? = [] := hall ▸ Detail.filterMap_request?_own own
  rw [hrendered]
  refine ⟨congrArg (List.cons _) hway, congrArg (List.cons _) hreq, fun d hd => ?_⟩
  rcases List.mem_cons.1 hd with rfl | hd
  · exact fun t v he => by cases he
  · rcases List.mem_cons.1 hd with rfl | hd
    · exact fun t v he => by cases he
    · exact (hown d hd).2

/-- **One hop over HTTP** keeps what the failure shows. -/
theorem http (h : Carries start hops f) (requestId method url : String) {status : Nat}
    (hs : 400 ≤ status) (labels : List (Option String)) :
    ∃ g, Hop.run ⟨requestId, .http method url status hs, labels⟩ f = some g ∧
      Carries start (hops ++ [⟨requestId, .http method url status hs, labels⟩]) g := by
  let g := Failure.ofCause (.remote ⟨f.description, f.rendered requestId⟩)
    ⟨some (callOperation method url), some f.canonicalCode⟩
  have hdeliver : Transport.deliver (.http method url status hs) requestId f = some g :=
    Failure.ofResponse_envelope f requestId method url (Nat.not_lt.2 hs) fun t v hm =>
      absurd hm (h.other_not_mem t v)
  refine ⟨g.labelled labels, by rw [Hop.run, hdeliver]; rfl, ?_⟩
  -- The root of `g` holds what was told of `f`, so its records are known from the invariant.
  obtain ⟨hway, hreq, hpackable⟩ := h.told requestId
  have hname : g.ops = [method ++ " " ++ url] :=
    List.filter_cons_of_pos (by simpa using Failure.callOperation_ne_empty method url)
  refine hop h.code h.description ?_ hway hreq hpackable ?_
  · rw [hname]
    rfl
  · intro hhttp'
    obtain ⟨own, hrendered, hown, hhttp⟩ := h.records
    have hall : own.filter Detail.isOwn = own := List.filter_eq_self.2 fun d hd => (hown d hd).1
    have hdetails : g.details.filter Detail.isOwn = own.filter Detail.isOwn := by
      rw [show g.details = _ from hrendered requestId]
      rfl
    rw [hdetails, hall, hhttp fun hop hm => hhttp' hop (List.mem_append_left _ hm)]

/-- **One hop over RPC** keeps what the failure shows. -/
theorem rpc (h : Carries start hops f) (requestId : String) (order : EntryOrder)
    (labels : List (Option String))
    (hlen : (f.toStatus requestId order).details.length < 0x10000000000000000) :
    ∃ g, Hop.run ⟨requestId, .rpc order, labels⟩ f = some g ∧
      Carries start (hops ++ [⟨requestId, .rpc order, labels⟩]) g := by
  let g := Failure.ofStatus (f.toStatus requestId order)
  refine ⟨g.labelled labels, rfl, ?_⟩
  have hdetails : g.details = (f.packed requestId).toDetails := Failure.detailRecords_toStatus hlen
  -- Here the root holds what was packed of what was told of `f`.
  obtain ⟨hway, hreq, -⟩ := h.told requestId
  obtain ⟨-, hdebug, hrequest⟩ := (f.packed requestId).toDetails_parts
  rw [← hdetails] at hdebug hrequest
  refine hop h.code h.description ?_ ?_ ?_ ?_ ?_
  · rfl
  · rw [hdebug, Failure.packed, Packed.debug_ofDetails hway]
    rfl
  · rw [hrequest, Failure.packed, Packed.request_ofDetails hreq]
    rfl
  · intro d hd
    rw [hdetails] at hd
    exact Packed.isPackable_of_mem_toDetails hd
  · -- This hop is none over HTTP.
    intro hhttp
    obtain ⟨_, _, _, _, he⟩ := hhttp _ (List.mem_append_right _ List.mem_cons_self)
    cases he

/-- **One hop** keeps what the failure shows. -/
theorem run (h : Carries start hops f) (hop : Hop) (hfits : hop.Fits f) :
    ∃ g, hop.run f = some g ∧ Carries start (hops ++ [hop]) g := by
  obtain ⟨requestId, transport, labels⟩ := hop
  cases transport with
  | http method url status hs => exact h.http requestId method url hs labels
  | rpc order => exact h.rpc requestId order labels (hfits order rfl)

/-- Any number of further hops keeps it. -/
theorem relay (h : Carries start hops f) : ∀ (more : List Hop), RelayFits more f →
    ∃ g, relay more f = some g ∧ Carries start (hops ++ more) g := by
  intro more
  induction more generalizing hops f with
  | nil =>
    intro _
    exact ⟨f, rfl, by rwa [List.append_nil]⟩
  | cons hop more ih =>
    intro hfits
    obtain ⟨g, hrun, hg⟩ := h.run hop hfits.1
    obtain ⟨g', hrelay, hg'⟩ := ih hg (hfits.2 g hrun)
    refine ⟨g', ?_, by rwa [List.append_assoc] at hg'⟩
    rw [Chassis.relay, hrun]
    exact hrelay

end Carries

/-- **A failure that is relayed keeps its code and its message**, and its records tell the whole
way, the id of the earliest hop that has one, and over HTTP alone also what they told at the
start. -/
theorem relay_carries (start : Failure) (hlocal : start.root.IsLocal) (hops : List Hop)
    (hfits : RelayFits hops start) :
    ∃ last, relay hops start = some last ∧
      last.canonicalCode = start.canonicalCode ∧
      last.description = start.description ∧
      ∃ own, (∀ requestId, (last.toResponse requestId).envelope.details =
          .request ⟨((hops.map (·.requestId)).find? (· != "")).getD requestId, ""⟩ ::
            .debug ⟨hops.reverse.flatMap Hop.ops ++ start.ops, ""⟩ :: own) ∧
        (∀ d ∈ own, d.isOwn = true) ∧
        ((∀ hop ∈ hops, hop.IsHttp) → own = start.details) := by
  obtain ⟨last, hrelay, hlast⟩ := (Carries.start hlocal).relay hops hfits
  obtain ⟨own, hrendered, hown, hhttp⟩ := hlast.records
  exact ⟨last, hrelay, hlast.code, hlast.description, own, hrendered,
    fun d hd => (hown d hd).1, hhttp⟩

/-- First over RPC under no id and then over HTTP. -/
theorem relay_carries_rpc_http :
    let start := (Failure.ofKind (.notFound "user" "42")).under "users.get"
    let hops : List Hop := [⟨"", .rpc .ascending, [some "proxy.call"]⟩,
      ⟨"r-2", .http "GET" "/users/42" 404 (by decide), [some "gateway.get", none, some ""]⟩]
    start.root.IsLocal ∧ RelayFits hops start ∧ ∃ last own, relay hops start = some last ∧
      last.canonicalCode = .notFound ∧
      (last.toResponse "edge").envelope.details = .request ⟨"r-2", ""⟩ ::
        .debug ⟨["gateway.get", "GET /users/42", "proxy.call", "users.get"], ""⟩ :: own := by
  intro start hops
  have hfits : RelayFits hops start := by
    refine ⟨fun order h => ?_, fun g _ => ⟨fun order h => ?_, fun _ _ => trivial⟩⟩
    · obtain rfl : EntryOrder.ascending = order := Transport.rpc.inj h
      decide +kernel
    · cases h
  obtain ⟨last, hrelay, hcode, -, own, hrecords, -⟩ := relay_carries start trivial hops hfits
  exact ⟨trivial, hfits, last, own, hrelay, hcode, hrecords "edge"⟩

end Chassis
