import Chassis.Detail.Basic

/-!
# Merged records

> **a merged list holds one record about the request, one about the way, and the others as they
> were** (`Detail.merge_context`).

Records are merged each time a failure is told, and the list that comes of it is the list that is
merged at the next place. So the case that matters is that of a list which holds one record of
either sort already, under the request and the operations of the place that merges it: the stack
grows at its outer end, and the id that is in the list wins over the new one unless it is empty.
-/

set_option autoImplicit false

namespace Chassis.Detail

/-! ## Texts -/

theorem overwrite_empty_left (s : String) : overwrite "" s = s := by
  rw [overwrite]
  split
  case isTrue h => exact h.symm
  case isFalse => rfl

theorem overwrite_of_ne {old new : String} (h : new ≠ "") : overwrite old new = new := if_neg h

/-! ## Sorts of records -/

theorem isOwn_of_mem {d : Detail} {ds : List Detail} (h : d ∈ ds.filter isOwn) : d.isOwn = true :=
  (List.mem_filter.1 h).2

theorem picks_eq_none {d : Detail} (h : d.isOwn = true) : d.request? = none ∧ d.debug? = none := by
  simpa [isOwn] using h

theorem filterMap_request?_own (ds : List Detail) : (ds.filter isOwn).filterMap request? = [] :=
  List.filterMap_eq_nil_iff.2 fun _ h => (picks_eq_none (isOwn_of_mem h)).1

theorem filterMap_debug?_own (ds : List Detail) : (ds.filter isOwn).filterMap debug? = [] :=
  List.filterMap_eq_nil_iff.2 fun _ h => (picks_eq_none (isOwn_of_mem h)).2

/-- What is merged stands at the head of the list, the rest is as it was. -/
theorem filter_isOwn_merge (ds : List Detail) : (merge ds).filter isOwn = ds.filter isOwn := by
  have h : (merge ds).filter isOwn = (ds.filter isOwn).filter isOwn := rfl
  rw [h, List.filter_filter]
  simp only [Bool.and_self]

theorem filterMap_request?_merge (ds : List Detail) : (merge ds).filterMap request? =
    [(ds.filterMap request?).foldl mergeRequest {}] := by
  have h : (merge ds).filterMap request? =
      (ds.filterMap request?).foldl mergeRequest {} :: (ds.filter isOwn).filterMap request? := rfl
  rw [h, filterMap_request?_own]

theorem filterMap_debug?_merge (ds : List Detail) : (merge ds).filterMap debug? =
    [(ds.filterMap debug?).foldl mergeDebug {}] := by
  have h : (merge ds).filterMap debug? =
      (ds.filterMap debug?).foldl mergeDebug {} :: (ds.filter isOwn).filterMap debug? := rfl
  rw [h, filterMap_debug?_own]

/-- Merging adds no records but the one about the request and the one about the way. -/
theorem mem_of_mem_merge {d : Detail} {ds : List Detail} (hd : d.isOwn = true)
    (h : d ∈ merge ds) : d ∈ ds := by
  have h : d ∈ (merge ds).filter isOwn := List.mem_filter.2 ⟨h, hd⟩
  rw [filter_isOwn_merge] at h
  exact (List.mem_filter.1 h).1

/-! ## Under one more place -/

variable {ds : List Detail} (ops : List String) (requestId : String)

/-- The records that a place adds. -/
def context : List Detail := [.debug ⟨ops, ""⟩, .request ⟨requestId, ""⟩]

theorem filterMap_request?_context :
    (context ops requestId ++ ds).filterMap request? =
      ⟨requestId, ""⟩ :: ds.filterMap request? := rfl

theorem filterMap_debug?_context :
    (context ops requestId ++ ds).filterMap debug? = ⟨ops, ""⟩ :: ds.filterMap debug? := rfl

theorem filter_isOwn_context :
    (context ops requestId ++ ds).filter isOwn = ds.filter isOwn := rfl

/-- **A list that was merged before is merged again** under the operations and the request of
another place. -/
theorem merge_context {way : DebugInfo} {req : RequestInfo} (hway : ds.filterMap debug? = [way])
    (hreq : ds.filterMap request? = [req]) :
    merge (context ops requestId ++ ds) =
      .request ⟨overwrite requestId req.requestId, req.servingData⟩ ::
        .debug ⟨ops ++ way.stackEntries, way.detail⟩ :: ds.filter isOwn := by
  rw [merge, filterMap_request?_context, filterMap_debug?_context, filter_isOwn_context, hway, hreq]
  simp only [List.foldl_cons, List.foldl_nil, mergeRequest, mergeDebug, overwrite_empty_left,
    List.nil_append]

/-- Records that are about neither get one about the request and one about the way. -/
theorem merge_own (hown : ∀ d ∈ ds, d.isOwn = true) :
    merge (context ops requestId ++ ds) = .request ⟨requestId, ""⟩ :: .debug ⟨ops, ""⟩ :: ds := by
  have hall : ds.filter isOwn = ds := List.filter_eq_self.2 hown
  have hreq : ds.filterMap request? = [] := hall ▸ filterMap_request?_own ds
  have hway : ds.filterMap debug? = [] := hall ▸ filterMap_debug?_own ds
  rw [merge, filterMap_request?_context, filterMap_debug?_context, filter_isOwn_context, hall,
    hway, hreq]
  simp only [List.foldl_cons, List.foldl_nil, mergeRequest, mergeDebug, overwrite_empty_left,
    List.nil_append]

end Chassis.Detail
