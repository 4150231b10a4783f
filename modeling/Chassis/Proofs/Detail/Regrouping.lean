import Chassis.Proofs.Detail.Merge

/-!
# Where records are merged

> **merged records are the last texts about the request, the whole way, and the others as they came;
> so it makes no difference at which places of a relay they are merged** (`Detail.merge_collapses`).

A merged list is known by three views of the list that it was merged from: what is said of the
request, the way, and the other records. Each view of two lists in a row is put together from the
views of either, and merging changes none of them. What follows is the same for all three, so it is
said once for any view with these two laws (`view_flatten_merge`).
-/

set_option autoImplicit false

namespace Chassis.Detail

/-! ## The last text -/

/-- The last text that is not empty, or the empty text if there is none. -/
def lastText (texts : List String) : String :=
  (texts.reverse.find? (· != "")).getD ""

/-- The last text of two lists in a row is that of the second one, unless it is empty. -/
theorem lastText_append (a b : List String) :
    lastText (a ++ b) = overwrite (lastText a) (lastText b) := by
  rw [lastText, List.reverse_append, List.find?_append]
  cases hb : b.reverse.find? (· != "") with
  | none =>
    have hempty : lastText b = "" := by rw [lastText, hb, Option.getD_none]
    rw [hempty, Option.none_or]
    rfl
  | some s =>
    have hlast : lastText b = s := by rw [lastText, hb, Option.getD_some]
    have hne : s ≠ "" := by simpa using List.find?_some hb
    rw [hlast, overwrite_of_ne hne, Option.some_or, Option.getD_some]

theorem lastText_singleton (s : String) : lastText [s] = s := by
  by_cases h : s = ""
  · rw [h]
    rfl
  · simp [lastText, h]

theorem lastText_cons (s : String) (texts : List String) :
    lastText (s :: texts) = overwrite s (lastText texts) := by
  rw [← List.singleton_append, lastText_append, lastText_singleton]

theorem overwrite_assoc (a b c : String) :
    overwrite (overwrite a b) c = overwrite a (overwrite b c) := by
  by_cases hc : c = ""
  · rw [hc]
    rfl
  · have hbc : overwrite b c ≠ "" := by rwa [overwrite_of_ne hc]
    rw [overwrite_of_ne hc, overwrite_of_ne hbc, overwrite_of_ne hc]

/-! ## The views of a list -/

/-- What the records say of the request. -/
def requestOf (ds : List Detail) : RequestInfo :=
  ⟨lastText ((ds.filterMap request?).map (·.requestId)),
    lastText ((ds.filterMap request?).map (·.servingData))⟩

/-- What the records say of the way. -/
def wayOf (ds : List Detail) : DebugInfo :=
  ⟨(ds.filterMap debug?).flatMap (·.stackEntries),
    lastText ((ds.filterMap debug?).map (·.detail))⟩

theorem requestOf_append (a b : List Detail) :
    requestOf (a ++ b) = mergeRequest (requestOf a) (requestOf b) := by
  simp only [requestOf, mergeRequest, List.filterMap_append, List.map_append, lastText_append]

theorem wayOf_append (a b : List Detail) : wayOf (a ++ b) = mergeDebug (wayOf a) (wayOf b) := by
  simp only [wayOf, mergeDebug, List.filterMap_append, List.map_append, List.flatMap_append,
    lastText_append]

/-- Records about the request are put on top of an earlier one as what they say together. -/
theorem foldl_mergeRequest (infos : List RequestInfo) (info : RequestInfo) :
    infos.foldl mergeRequest info =
      mergeRequest info
        ⟨lastText (infos.map (·.requestId)), lastText (infos.map (·.servingData))⟩ := by
  induction infos generalizing info with
  | nil => rfl
  | cons next infos ih =>
    rw [List.foldl_cons, ih]
    simp only [mergeRequest, List.map_cons, lastText_cons, overwrite_assoc]

/-- So are records about the way. -/
theorem foldl_mergeDebug (infos : List DebugInfo) (info : DebugInfo) :
    infos.foldl mergeDebug info =
      mergeDebug info
        ⟨infos.flatMap (·.stackEntries), lastText (infos.map (·.detail))⟩ := by
  induction infos generalizing info with
  | nil => simp only [List.foldl_nil, mergeDebug, List.flatMap_nil, List.append_nil]; rfl
  | cons next infos ih =>
    rw [List.foldl_cons, ih]
    simp only [mergeDebug, List.map_cons, List.flatMap_cons, lastText_cons, overwrite_assoc,
      List.append_assoc]

/-- **A merged list is its views.** -/
theorem merge_eq (ds : List Detail) :
    merge ds = .request (requestOf ds) :: .debug (wayOf ds) :: ds.filter isOwn := by
  rw [merge, foldl_mergeRequest, foldl_mergeDebug]
  simp only [mergeRequest, mergeDebug, overwrite_empty_left, List.nil_append]
  rfl

/-! ## Merging in parts -/

theorem requestOf_merge (ds : List Detail) : requestOf (merge ds) = requestOf ds := by
  have hpicked : (merge ds).filterMap request? = [requestOf ds] := by
    rw [merge_eq]
    exact congrArg (requestOf ds :: ·) (filterMap_request?_own ds)
  rw [requestOf, hpicked]
  simp only [List.map_cons, List.map_nil, lastText_singleton]

theorem wayOf_merge (ds : List Detail) : wayOf (merge ds) = wayOf ds := by
  have hpicked : (merge ds).filterMap debug? = [wayOf ds] := by
    rw [merge_eq]
    exact congrArg (wayOf ds :: ·) (filterMap_debug?_own ds)
  rw [wayOf, hpicked]
  simp only [List.map_cons, List.map_nil, List.flatMap_cons, List.flatMap_nil, List.append_nil,
    lastText_singleton]

/-- A view that is put together from the views of parts, and that merging does not change, is the
same whether the parts are merged before or not. -/
theorem view_flatten_merge {β : Type} {view : List Detail → β} {put : β → β → β}
    (happend : ∀ a b, view (a ++ b) = put (view a) (view b))
    (hmerge : ∀ ds, view (merge ds) = view ds) (parts : List (List Detail)) :
    view (parts.map merge).flatten = view parts.flatten := by
  induction parts with
  | nil => rfl
  | cons part parts ih =>
    rw [List.map_cons, List.flatten_cons, List.flatten_cons, happend, happend, hmerge, ih]

/-- Lists with the same views are merged into the same list. -/
theorem merge_congr {a b : List Detail} (hrequest : requestOf a = requestOf b)
    (hway : wayOf a = wayOf b) (hown : a.filter isOwn = b.filter isOwn) : merge a = merge b := by
  rw [merge_eq, merge_eq, hrequest, hway, hown]

theorem merge_flatten (parts : List (List Detail)) :
    merge (parts.map merge).flatten = merge parts.flatten :=
  merge_congr (view_flatten_merge requestOf_append requestOf_merge parts)
    (view_flatten_merge wayOf_append wayOf_merge parts)
    (view_flatten_merge (fun _ _ => List.filter_append ..) filter_isOwn_merge parts)

theorem merge_merge (ds : List Detail) : merge (merge ds) = merge ds :=
  merge_congr (requestOf_merge ds) (wayOf_merge ds) (filter_isOwn_merge ds)

/-- **Merging is exactly this**: one record with the last texts about the request, one with the
whole way and the last detail of it, and the other records as they came. So a list may be cut into
parts anywhere and the parts merged first, and merging again changes nothing. -/
theorem merge_collapses :
    (∀ ds : List Detail, merge ds =
      .request
          ⟨lastText ((ds.filterMap request?).map (·.requestId)),
            lastText ((ds.filterMap request?).map (·.servingData))⟩ ::
        .debug
          ⟨(ds.filterMap debug?).flatMap (·.stackEntries),
            lastText ((ds.filterMap debug?).map (·.detail))⟩ ::
        ds.filter isOwn) ∧
      (∀ parts : List (List Detail), merge parts.flatten = merge (parts.map merge).flatten) ∧
      ∀ ds : List Detail, merge (merge ds) = merge ds :=
  ⟨merge_eq, fun parts => (merge_flatten parts).symm, merge_merge⟩

end Chassis.Detail
