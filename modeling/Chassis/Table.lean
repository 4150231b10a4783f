/-!
# Sorted tables

A table of texts by key, kept in ascending order of its keys. Two tables with the same entries are
equal, so a table can be written out and read back without a word about the order of insertion.
-/

set_option autoImplicit false

namespace Chassis

/-- Puts a value under a key: before the first larger key, or in place of the value that the key
had. -/
def insertSorted {α : Type} (key : String) (value : α) : List (String × α) → List (String × α)
  | [] => [(key, value)]
  | (k, v) :: rest =>
    if key < k then (key, value) :: (k, v) :: rest
    else if key = k then (key, value) :: rest
    else (k, v) :: insertSorted key value rest

/-- The keys ascend, and none occurs twice. -/
def Ascending {α : Type} (entries : List (String × α)) : Prop :=
  entries.Pairwise (fun a b => a.1 < b.1)

/-- An entry of the list with a key set is the new one or an old one. -/
theorem mem_insertSorted {α : Type} {key : String} {value : α} {x : String × α} :
    ∀ {entries : List (String × α)},
      x ∈ insertSorted key value entries → x = (key, value) ∨ x ∈ entries
  | [], h => by simpa [insertSorted] using h
  | (k, v) :: rest, h => by
    unfold insertSorted at h
    split at h
    · simpa using h
    · split at h
      · rcases List.mem_cons.1 h with h | h
        · exact .inl h
        · exact .inr (List.mem_cons_of_mem _ h)
      · rcases List.mem_cons.1 h with h | h
        · exact .inr (h ▸ List.mem_cons_self)
        · rcases mem_insertSorted h with h | h
          · exact .inl h
          · exact .inr (List.mem_cons_of_mem _ h)

/-- Setting a key keeps the keys ascending. -/
theorem ascending_insertSorted {α : Type} (key : String) (value : α) :
    ∀ {entries : List (String × α)},
      Ascending entries → Ascending (insertSorted key value entries)
  | [], _ => by simp [insertSorted, Ascending]
  | (k, v) :: rest, h => by
    have hk := List.pairwise_cons.1 h
    unfold insertSorted
    split
    case isTrue hlt =>
      refine List.pairwise_cons.2 ⟨fun x hx => ?_, h⟩
      rcases List.mem_cons.1 hx with rfl | hx
      · exact hlt
      · exact String.lt_trans hlt (hk.1 x hx)
    case isFalse hlt =>
      split
      case isTrue heq =>
        subst heq
        exact List.pairwise_cons.2 ⟨hk.1, hk.2⟩
      case isFalse hne =>
        refine List.pairwise_cons.2 ⟨fun x hx => ?_, ascending_insertSorted key value hk.2⟩
        rcases mem_insertSorted hx with rfl | hx
        · rcases Classical.em (k < key) with h' | h'
          · exact h'
          · exact absurd (String.le_antisymm (String.not_lt.1 h') (String.not_lt.1 hlt)) hne
        · exact hk.1 x hx

/-- Texts by key, in ascending order of the keys. -/
structure Table where
  entries : List (String × String)
  ascending : Ascending entries

namespace Table

/-- Tables with the same entries are the same. -/
theorem ext' {a b : Table} (h : a.entries = b.entries) : a = b := by
  cases a; cases b; cases h; rfl

instance : DecidableEq Table := fun a b =>
  if h : a.entries = b.entries then isTrue (ext' h)
  else isFalse fun e => h (congrArg entries e)

instance : Repr Table := ⟨fun t n => reprPrec t.entries n⟩

def empty : Table := ⟨[], List.Pairwise.nil⟩

instance : Inhabited Table := ⟨empty⟩

/-- The table with a value put under a key. -/
def insert (t : Table) (key value : String) : Table :=
  ⟨insertSorted key value t.entries, ascending_insertSorted key value t.ascending⟩

/-- The table of some entries; of two with one key the later wins. -/
def ofList (entries : List (String × String)) : Table :=
  entries.foldl (fun t e => t.insert e.1 e.2) empty

def isEmpty (t : Table) : Bool := t.entries.isEmpty

end Table

end Chassis
