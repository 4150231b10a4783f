import Chassis.Table

/-!
# Tables are rebuilt from their entries, in any order

> **`ofList es = t` whenever `es` is a rearrangement of the entries of `t`**
> (`Table.ofList_eq_of_perm`).

A table leaves the process as a list of entries, and nothing on the other side knows the order they
were in before. The keys of a table are distinct, so putting the entries back never overwrites one:
each `insertSorted` is a permutation away from `cons` (`insertSorted_perm`), and of the lists with
the same entries only one ascends.
-/

set_option autoImplicit false

namespace Chassis

theorem insertSorted_perm {α : Type} {key : String} (value : α) :
    ∀ {entries : List (String × α)}, (∀ e ∈ entries, e.1 ≠ key) →
      (insertSorted key value entries).Perm ((key, value) :: entries)
  | [], _ => .refl _
  | (k, v) :: rest, h => by
    have hk : ¬ key = k := fun he => h (k, v) (by simp) he.symm
    unfold insertSorted
    split
    case isTrue => exact .refl _
    case isFalse =>
      have ih := insertSorted_perm value (fun e he => h e (List.mem_cons_of_mem _ he))
      exact (ih.cons (k, v)).trans (List.Perm.swap _ _ _)

/-- A key that was set is found with its value, and any other as before. -/
theorem find?_insertSorted {α : Type} (key : String) (value : α) (name : String) :
    ∀ entries : List (String × α), (insertSorted key value entries).find? (·.1 == name) =
      if key = name then some (key, value) else entries.find? (·.1 == name)
  | [] => by by_cases hname : key = name <;> simp [insertSorted, hname]
  | (k, v) :: rest => by
    have ih := find?_insertSorted key value name rest
    unfold insertSorted
    split
    case isTrue => by_cases hname : key = name <;> simp [hname]
    case isFalse =>
      split
      case isTrue hk =>
        subst hk
        by_cases hname : key = name <;> simp [hname]
      case isFalse hk =>
        by_cases hname : k = name
        · subst hname
          simp [hk]
        · have hskip (v : α) (es : List (String × α)) :
              ((k, v) :: es).find? (·.1 == name) = es.find? (·.1 == name) :=
            List.find?_cons_of_neg (by simpa using hname)
          rw [hskip, hskip, ih]

theorem Ascending.nodup_keys {α : Type} {entries : List (String × α)} (h : Ascending entries) :
    (entries.map Prod.fst).Nodup := by
  rw [List.Nodup, List.pairwise_map]
  refine List.Pairwise.imp (fun hab => ?_) h
  intro he
  rw [he] at hab
  exact String.lt_irrefl _ hab

/-- Of the lists with the same entries only one is in ascending order. -/
theorem Ascending.eq_of_perm {α : Type} {a b : List (String × α)} (ha : Ascending a)
    (hb : Ascending b) (h : a.Perm b) : a = b := by
  refine List.Perm.eq_of_pairwise (fun x y _ _ hxy hyx => ?_) ha hb h
  exact absurd hyx (String.lt_asymm hxy)

namespace Table

/-- Entries with keys that are new, and distinct, are added to those that are there. -/
theorem foldl_insert_perm : ∀ {es : List (String × String)} {t : Table},
    ((t.entries ++ es).map Prod.fst).Nodup →
    (es.foldl (fun t e => t.insert e.1 e.2) t).entries.Perm (t.entries ++ es)
  | [], t, _ => by simp
  | (k, v) :: es, t, h => by
    have hnew : ∀ e ∈ t.entries, e.1 ≠ k := by
      intro e he hk
      rw [List.map_append, List.nodup_append] at h
      exact h.2.2 e.1 (List.mem_map_of_mem he) k (by simp) hk
    have hins : (t.insert k v).entries.Perm ((k, v) :: t.entries) := insertSorted_perm v hnew
    -- Moving the new entry to the front of the others keeps the keys distinct for those to come.
    have hcat : ((t.insert k v).entries ++ es).Perm (t.entries ++ (k, v) :: es) :=
      (hins.append_right es).trans List.perm_middle.symm
    have hnodup : (((t.insert k v).entries ++ es).map Prod.fst).Nodup :=
      ((hcat.map Prod.fst).nodup_iff).2 h
    exact (foldl_insert_perm hnodup).trans hcat

/-- **A table is rebuilt from its entries, in whatever order they come.** -/
theorem ofList_eq_of_perm {es : List (String × String)} {t : Table} (h : es.Perm t.entries) :
    ofList es = t := by
  have hkeys : ((empty.entries ++ es).map Prod.fst).Nodup := by
    have := (h.map Prod.fst).nodup_iff.2 t.ascending.nodup_keys
    simpa [empty] using this
  have hperm : (ofList es).entries.Perm t.entries := by
    have := foldl_insert_perm hkeys
    exact this.trans (by simpa [empty] using h)
  exact ext' ((ofList es).ascending.eq_of_perm t.ascending hperm)

end Table

end Chassis
