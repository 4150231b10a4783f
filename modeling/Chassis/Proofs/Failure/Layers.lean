import Chassis.Proofs.Detail.Regrouping
import Chassis.Proofs.RpcStatus.Packing

/-!
# What a failure shows, layer by layer

> **the operations and the code of a failure come from its layers, all else from its root cause**
> (`Failure.shown_by_layers`).

A layer can do two things: name an operation and set a code. So of two failures with the same root
cause a caller is told the same, over HTTP and over RPC, but for the code and the way. The way
stands in one place only, the stack of the record about it, and `Detail.withoutStack` takes it out;
in what is left of the records no layer has a part. Beneath a failure lie its inner layers, from the
outside in, each shown as the failure that it makes together with the layers further in.
-/

set_option autoImplicit false

namespace Chassis

/-- What a layer adds to the way: the operation it names, unless the name is empty. -/
def Layer.label (layer : Layer) : List String :=
  match layer.op with
  | none => []
  | some op => if op = "" then [] else [op]

/-- The code that a root cause has of its own. Only an interruption has one. -/
def Cause.ownCode? : Cause → Option Code
  | .interrupted i => some i.code
  | _ => none

/-! ## Records without the way -/

def DebugInfo.withoutStack (info : DebugInfo) : DebugInfo := { info with stackEntries := [] }

/-- The record as it is but for the operations of the way. -/
def Detail.withoutStack : Detail → Detail
  | .debug info => .debug info.withoutStack
  | d => d

namespace RpcStatus.Packed

def withoutStack (p : Packed) : Packed := { p with debug := p.debug.map (·.withoutStack) }

theorem add_withoutStack (p : Packed) (d : Detail) :
    p.withoutStack.add d.withoutStack = (p.add d).withoutStack := by
  cases d <;> rfl

theorem ofDetails_map_withoutStack (ds : List Detail) :
    ofDetails (ds.map Detail.withoutStack) = (ofDetails ds).withoutStack := by
  have hadd : ∀ (ds : List Detail) (p : Packed),
      (ds.map Detail.withoutStack).foldl add p.withoutStack = (ds.foldl add p).withoutStack := by
    intro ds
    induction ds with
    | nil => exact fun _ => rfl
    | cons d ds ih =>
      intro p
      rw [List.map_cons, List.foldl_cons, add_withoutStack, ih, List.foldl_cons]
  exact hadd ds {}

theorem toDetails_withoutStack (p : Packed) :
    p.withoutStack.toDetails = p.toDetails.map Detail.withoutStack := by
  obtain ⟨debug, quota, error, precondition, badRequest, request, resource⟩ := p
  cases debug <;> cases quota <;> cases error <;> cases precondition <;> cases badRequest <;>
    cases request <;> cases resource <;> rfl

end RpcStatus.Packed

namespace Failure

/-! ## Layers -/

theorem ops_eq_flatMap (f : Failure) : f.ops = f.layers.flatMap Layer.label := by
  rw [ops]
  induction f.layers with
  | nil => rfl
  | cons layer layers ih =>
    rw [List.flatMap_cons, ← ih, Layer.label]
    cases hop : layer.op with
    | none => rw [List.filterMap_cons_none hop, List.nil_append]
    | some op =>
      rw [List.filterMap_cons_some hop, List.filter_cons]
      by_cases hempty : op = "" <;> simp [hempty]

theorem explicitCode_eq_some_iff (f : Failure) (c : Code) :
    f.explicitCode = some c ↔ ∃ outer layer inner, f.layers = outer ++ layer :: inner ∧
      layer.code = some c ∧ ∀ l ∈ outer, l.code = none := by
  rw [explicitCode, List.findSome?_eq_some_iff]

theorem canonicalCode_eq (f : Failure) :
    f.canonicalCode = (f.explicitCode.or f.root.ownCode?).getD .unknown := by
  rw [canonicalCode]
  cases f.explicitCode with
  | some c => rfl
  | none => cases f.root <;> rfl

/-! ## What lies beneath -/

theorem length_innerFailures (root : Cause) (layers : List Layer) :
    (innerFailures root layers).length = layers.length := by
  induction layers with
  | nil => rfl
  | cons layer layers ih => rw [innerFailures, List.length_cons, List.length_cons, ih]

/-- Beneath the layers in front, a layer makes a failure with the layers behind it. -/
theorem innerFailures_append (root : Cause) (before : List Layer) (layer : Layer)
    (rest : List Layer) :
    (innerFailures root (before ++ layer :: rest))[before.length]? =
      some ⟨layer, rest, root⟩ := by
  induction before with
  | nil => rfl
  | cons _ _ ih => exact ih

theorem sources_of_inner {f : Failure} {before rest : List Layer} {layer : Layer}
    (h : f.inner = before ++ layer :: rest) :
    f.sources[before.length]? = some (.failure ⟨layer, rest, f.root⟩) := by
  have hlt : before.length < ((innerFailures f.root f.inner).map Source.failure).length := by
    rw [List.length_map, length_innerFailures, h, List.length_append, List.length_cons]
    omega
  rw [sources, List.getElem?_append_left hlt, List.getElem?_map, h, innerFailures_append]
  rfl

theorem sources_length_inner (f : Failure) :
    f.sources[f.inner.length]? = some (.cause f.root) := by
  have hlen : ((innerFailures f.root f.inner).map Source.failure).length = f.inner.length := by
    rw [List.length_map, length_innerFailures]
  rw [sources, List.getElem?_append_right (Nat.le_of_eq hlen), hlen, Nat.sub_self]
  rfl

/-! ## Failures with the same root cause -/

variable {f g : Failure}

theorem map_withoutStack_rendered (h : g.root = f.root) (requestId : String) :
    (g.rendered requestId).map Detail.withoutStack =
      (f.rendered requestId).map Detail.withoutStack := by
  have hdetails : g.details = f.details := congrArg Cause.details h
  rw [rendered, rendered, hdetails, Detail.merge_eq, Detail.merge_eq]
  rfl

theorem toDetails_packed_congr (h : g.root = f.root) (requestId : String) :
    (g.packed requestId).toDetails.map Detail.withoutStack =
      (f.packed requestId).toDetails.map Detail.withoutStack := by
  rw [packed, packed, ← RpcStatus.Packed.toDetails_withoutStack,
    ← RpcStatus.Packed.toDetails_withoutStack, ← RpcStatus.Packed.ofDetails_map_withoutStack,
    ← RpcStatus.Packed.ofDetails_map_withoutStack, map_withoutStack_rendered h]

/-- What both failures are and what callers are told of them is the same, but for codes and ways. -/
structure TellsTheSame (f g : Failure) : Prop where
  description : g.description = f.description
  details : g.details = f.details
  base : g.base = f.base
  message (requestId : String) :
    (g.toResponse requestId).envelope.message = (f.toResponse requestId).envelope.message
  records (requestId : String) :
    (g.toResponse requestId).envelope.details.map Detail.withoutStack =
      (f.toResponse requestId).envelope.details.map Detail.withoutStack
  statusMessage (requestId : String) (order : Wire.EntryOrder) :
    (g.toStatus requestId order).message = (f.toStatus requestId order).message
  /-- The bytes of a status are shorter than 2⁶⁴, as all bytes in memory are. -/
  statusRecords (requestId : String) (order : Wire.EntryOrder) :
    (f.toStatus requestId order).details.length < 0x10000000000000000 →
    (g.toStatus requestId order).details.length < 0x10000000000000000 →
    (g.toStatus requestId order).detailRecords.map Detail.withoutStack =
      (f.toStatus requestId order).detailRecords.map Detail.withoutStack

theorem tellsTheSame_of_root_eq (h : g.root = f.root) : TellsTheSame f g where
  description := congrArg Cause.message h
  details := congrArg Cause.details h
  base := congrArg Cause.base h
  message _ := congrArg Cause.message h
  records requestId := map_withoutStack_rendered h requestId
  statusMessage _ _ := congrArg Cause.message h
  statusRecords requestId order hf hg := by
    rw [detailRecords_toStatus hf, detailRecords_toStatus hg]
    exact toDetails_packed_congr h requestId

/-- **The operations and the code of a failure come from its layers, all else from its root
cause**, and beneath it lie its inner layers, each with those further in, and then the root
cause. -/
theorem shown_by_layers (f : Failure) :
    f.ops = f.layers.flatMap Layer.label ∧
      (∀ c, f.explicitCode = some c ↔ ∃ outer layer inner,
        f.layers = outer ++ layer :: inner ∧ layer.code = some c ∧ ∀ l ∈ outer, l.code = none) ∧
      f.canonicalCode = (f.explicitCode.or f.root.ownCode?).getD .unknown ∧
      f.code = f.explicitCode.getD .unknown ∧
      (∀ g : Failure, g.root = f.root → TellsTheSame f g) ∧
      (∀ before layer rest, f.inner = before ++ layer :: rest →
        ∃ s, f.sources[before.length]? = some s ∧ s = .failure ⟨layer, rest, f.root⟩ ∧
          s.text = display ⟨layer, rest, f.root⟩) ∧
      f.sources[f.inner.length]? = some (.cause f.root) := by
  refine ⟨f.ops_eq_flatMap, f.explicitCode_eq_some_iff, f.canonicalCode_eq, rfl,
    fun g h => tellsTheSame_of_root_eq h, ?_, f.sources_length_inner⟩
  intro before layer rest h
  exact ⟨_, sources_of_inner h, rfl, rfl⟩

/-- An empty name is left out, and the code of an outer layer hides that of an inner one. -/
example : (⟨⟨some "a", none⟩, [⟨some "", some .notFound⟩, ⟨some "c", some .internal⟩],
      .other "x"⟩ : Failure).sources.map Source.text =
    ["op = c, code = NOT_FOUND, desc = x", "op = c, code = INTERNAL, desc = x", "x"] := by
  decide

end Failure

end Chassis
