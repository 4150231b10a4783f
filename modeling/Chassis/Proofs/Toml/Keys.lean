import Chassis.Toml.Reader
import Mathlib.Data.List.Nodup

/-!
# A document has every key once

> **In every table of a document that can be read, each key stands once**
> (`Entries.distinct_ofText?`).

A table grows in two ways only: a new key is put behind the others, or the node under a key is
replaced. Every change that a statement makes comes down to these, at the end of a path
(`changeAt_distinct`), so each statement keeps the keys apart (`Draft.Distinct.add`), and with it a
whole document.
-/

set_option autoImplicit false

namespace Chassis.Toml

/-- In every table of the node, each key stands once. -/
inductive Node.Distinct : Node → Prop
  | scalar (s : Scalar) : Distinct (.scalar s)
  | array {items : List Node} (h : ∀ n ∈ items, n.Distinct) : Distinct (.array items)
  | tables {items : List Node} (h : ∀ n ∈ items, n.Distinct) : Distinct (.tables items)
  | table {origin : Origin} {es : Entries} (hkeys : (es.map Prod.fst).Nodup)
      (h : ∀ e ∈ es, e.2.Distinct) : Distinct (.table origin es)

/-- Each key stands once among the entries, and in every table below them. -/
structure Entries.Distinct (es : Entries) : Prop where
  keys : (es.map Prod.fst).Nodup
  nodes : ∀ e ∈ es, e.2.Distinct

theorem Node.Distinct.entries {origin : Origin} {es : Entries}
    (h : (Node.table origin es).Distinct) : es.Distinct := by
  cases h with
  | table hkeys h => exact ⟨hkeys, h⟩

theorem Node.Distinct.items {items : List Node} (h : (Node.tables items).Distinct) :
    ∀ n ∈ items, n.Distinct := by
  cases h with
  | tables h => exact h

namespace Entries

variable {es : Entries} {key : String} {node : Node}

/-! ## Looking up and changing entries -/

theorem mem_of_get? (h : es.get? key = some node) : (key, node) ∈ es := by
  rw [get?, Option.map_eq_some_iff] at h
  obtain ⟨⟨key', node'⟩, hfind, rfl⟩ := h
  obtain rfl : key' = key := by simpa using List.find?_some hfind
  exact List.mem_of_find?_eq_some hfind

theorem get?_eq_none (h : es.get? key = none) : ∀ e ∈ es, e.1 ≠ key := by
  intro e he
  rw [get?, Option.map_eq_none_iff, List.find?_eq_none] at h
  simpa using h e he

/-- Where each key stands once, looking a key up finds its entry. -/
theorem Distinct.get?_of_mem (hes : es.Distinct) (h : (key, node) ∈ es) :
    es.get? key = some node := by
  cases hget : es.get? key with
  | none => exact absurd rfl (get?_eq_none hget _ h)
  | some node' =>
    have := List.inj_on_of_nodup_map hes.keys h (mem_of_get? hget) rfl
    rw [(Prod.mk.inj this).2]

theorem map_fst_replace (es : Entries) (key : String) (node : Node) :
    (es.replace key node).map Prod.fst = es.map Prod.fst := by
  rw [replace, List.map_map]
  refine List.map_congr_left fun e _ => ?_
  rw [Function.comp_apply]
  split
  · exact Eq.symm ‹_›
  · rfl

theorem distinct_nil : Entries.Distinct [] := ⟨List.nodup_nil, by simp⟩

theorem Distinct.concat (hes : es.Distinct) (hkey : es.get? key = none) (hnode : node.Distinct) :
    Entries.Distinct (es ++ [(key, node)]) := by
  constructor
  · rw [List.map_append, List.nodup_append]
    refine ⟨hes.keys, by simp, ?_⟩
    intro k hk k' hk'
    obtain ⟨e, he, rfl⟩ := List.mem_map.1 hk
    obtain rfl : k' = key := by simpa using hk'
    exact get?_eq_none hkey e he
  · intro e he
    rcases List.mem_append.1 he with he | he
    · exact hes.nodes e he
    · obtain rfl := List.mem_singleton.1 he
      exact hnode

theorem Distinct.replace (hes : es.Distinct) (hnode : node.Distinct) :
    (es.replace key node).Distinct := by
  constructor
  · rw [map_fst_replace]
    exact hes.keys
  · intro e he
    obtain ⟨e', he', rfl⟩ := List.mem_map.1 he
    split
    · exact hnode
    · exact hes.nodes e' he'

theorem Distinct.remove (hes : es.Distinct) : (es.remove key).Distinct := by
  constructor
  · exact (List.filter_sublist.map Prod.fst).nodup hes.keys
  · intro e he
    exact hes.nodes e (List.mem_of_mem_filter he)

theorem Distinct.get (hes : es.Distinct) (h : es.get? key = some node) : node.Distinct :=
  hes.nodes (key, node) (mem_of_get? h)

end Entries

/-! ## Changes at a path -/

/-- The change keeps the keys of a table apart, and what it gives beside the table is as told. -/
def Keeps {α : Type} (P : α → Prop) (change : Origin → Entries → Option (α × Entries)) : Prop :=
  ∀ {origin : Origin} {es es' : Entries} {a : α},
    es.Distinct → change origin es = some (a, es') → P a ∧ es'.Distinct

theorem changeAt_distinct {α : Type} {P : α → Prop}
    {change : Origin → Entries → Option (α × Entries)} (hchange : Keeps P change) (dotted : Bool)
    (path : List String) : Keeps P (changeAt dotted change path) := by
  induction path with
  | nil =>
    intro origin es es' a hes h
    exact hchange hes h
  | cons key path ih =>
    intro origin es es' a hes h
    rw [changeAt] at h
    split at h
    case h_1 hget =>
      simp only [bind, Option.bind_eq_some_iff, Option.some.injEq, Prod.exists,
        Prod.mk.injEq] at h
      obtain ⟨_, sub, hsub, rfl, rfl⟩ := h
      obtain ⟨ha, hsub⟩ := ih Entries.distinct_nil hsub
      exact ⟨ha, hes.concat hget (.table hsub.keys hsub.nodes)⟩
    case h_2 sub hget =>
      split at h
      case isTrue => cases h
      case isFalse =>
        simp only [bind, Option.bind_eq_some_iff, Option.some.injEq, Prod.exists,
          Prod.mk.injEq] at h
        obtain ⟨_, sub', hsub, rfl, rfl⟩ := h
        obtain ⟨ha, hsub⟩ := ih (hes.get hget).entries hsub
        exact ⟨ha, hes.replace (.table hsub.keys hsub.nodes)⟩
    case h_3 items hget =>
      have hitems := (hes.get hget).items
      split at h
      case h_2 => cases h
      case h_1 sub hlast =>
        simp only [bind, Option.bind_eq_some_iff, Option.some.injEq, Prod.exists,
          Prod.mk.injEq] at h
        obtain ⟨_, sub', hsub, rfl, rfl⟩ := h
        obtain ⟨ha, hsub⟩ := ih (hitems _ (List.mem_of_getLast? hlast)).entries hsub
        refine ⟨ha, hes.replace (.tables fun n hn => ?_)⟩
        rcases List.mem_append.1 hn with hn | hn
        · exact hitems n (List.dropLast_subset items hn)
        · obtain rfl := List.mem_singleton.1 hn
          exact .table hsub.keys hsub.nodes
    case h_4 => cases h

theorem keeps_assignKey {dotted : Bool} {key : String} {value : Node} (hvalue : value.Distinct) :
    Keeps (fun _ => True) (assignKey dotted key value) := by
  intro origin es es' a hes h
  rw [assignKey] at h
  split at h
  case isTrue => cases h
  case isFalse =>
    split at h
    case isTrue => cases h
    case isFalse hget =>
      cases h
      exact ⟨trivial, hes.concat (by simpa using hget) hvalue⟩

theorem keeps_takeImplied (key : String) : Keeps Entries.Distinct (takeImplied key) := by
  intro origin es es' a hes h
  rw [takeImplied] at h
  split at h
  case h_1 =>
    cases h
    exact ⟨Entries.distinct_nil, hes⟩
  case h_2 hget =>
    cases h
    exact ⟨(hes.get hget).entries, hes.remove⟩
  case h_3 => cases h

theorem keeps_reserveItems (key : String) : Keeps (fun _ => True) (reserveItems key) := by
  intro origin es es' a hes h
  rw [reserveItems] at h
  split at h
  case h_1 hget =>
    cases h
    exact ⟨trivial, hes.concat hget (.tables (by simp))⟩
  case h_2 =>
    cases h
    exact ⟨trivial, hes⟩
  case h_3 => cases h

theorem keeps_pushItem {key : String} {item : Node} (hitem : item.Distinct) :
    Keeps (fun _ => True) (pushItem key item) := by
  intro origin es es' a hes h
  rw [pushItem] at h
  split at h
  case h_1 items hget =>
    cases h
    refine ⟨trivial, hes.replace (.tables fun n hn => ?_)⟩
    rcases List.mem_append.1 hn with hn | hn
    · exact (hes.get hget).items n hn
    · obtain rfl := List.mem_singleton.1 hn
      exact hitem
  case h_2 => cases h

theorem keeps_pushTable {key : String} {entries : Entries} (hentries : entries.Distinct) :
    Keeps (fun _ => True) (pushTable key entries) := by
  intro origin es es' a hes h
  rw [pushTable] at h
  split at h
  case isTrue => cases h
  case isFalse hget =>
    cases h
    exact ⟨trivial, hes.concat (by simpa using hget) (.table hentries.keys hentries.nodes)⟩

theorem assign_distinct {es es' : Entries} {path : List String} {key : String} {value : Node}
    (hes : es.Distinct) (hvalue : value.Distinct) (h : assign es path key value = some es') :
    es'.Distinct := by
  rw [assign, Option.map_eq_some_iff] at h
  obtain ⟨⟨_, _⟩, h, rfl⟩ := h
  exact (changeAt_distinct (keeps_assignKey hvalue) true path hes h).2

/-! ## Values -/

theorem foldlM_assign_distinct {pairs : List ((List String × String) × Node)} {es es' : Entries}
    (hpairs : ∀ p ∈ pairs, p.2.Distinct) (hes : es.Distinct)
    (h : pairs.foldlM (fun es p => assign es p.1.1 p.1.2 p.2) es = some es') : es'.Distinct := by
  induction pairs generalizing es with
  | nil =>
    cases h
    exact hes
  | cons p pairs ih =>
    obtain ⟨es₁, hp, h⟩ := Option.bind_eq_some_iff.1 h
    exact ih (fun q hq => hpairs q (List.mem_cons_of_mem _ hq))
      (assign_distinct hes (hpairs p List.mem_cons_self) hp) h

theorem bracesTable_distinct {pairs : List ((List String × String) × Node)} {n : Node}
    (hpairs : ∀ p ∈ pairs, p.2.Distinct) (h : bracesTable pairs = some n) : n.Distinct := by
  obtain ⟨es, hes, h⟩ := Option.bind_eq_some_iff.1 h
  cases h
  have := foldlM_assign_distinct hpairs Entries.distinct_nil hes
  exact .table this.keys this.nodes

/-- What the reader gives has every key once. -/
def ReadsDistinct (value : Reader Node) : Prop :=
  ∀ {cs rest : List Char} {n : Node}, value cs = some (n, rest) → n.Distinct

theorem elements?_distinct {value : Reader Node} (hvalue : ReadsDistinct value) {fuel : Nat}
    {cs rest : List Char} {items : List Node} (h : elements? value fuel cs = some (items, rest)) :
    ∀ n ∈ items, n.Distinct := by
  induction fuel generalizing cs rest items with
  | zero => cases h
  | succ fuel ih =>
    rw [elements?] at h
    split at h
    case h_1 =>
      cases h
      simp
    case h_2 =>
      obtain ⟨⟨item, cs₁⟩, hitem, h⟩ := Option.bind_eq_some_iff.1 h
      dsimp only at h
      split at h
      case h_1 =>
        cases h
        simpa using hvalue hitem
      case h_2 =>
        obtain ⟨⟨more, cs₂⟩, hmore, h⟩ := Option.bind_eq_some_iff.1 h
        cases h
        exact List.forall_mem_cons.2 ⟨hvalue hitem, ih hmore⟩
      case h_3 => cases h

theorem pair?_distinct {value : Reader Node} (hvalue : ReadsDistinct value) {cs rest : List Char}
    {p : (List String × String) × Node} (h : pair? value cs = some (p, rest)) : p.2.Distinct := by
  simp only [pair?, bind, Option.bind_eq_some_iff, Prod.exists] at h
  obtain ⟨path, key, cs₁, hkey, cs₂, hsign, node, cs₃, hnode, h⟩ := h
  cases h
  exact hvalue hnode

theorem pairs?_distinct {value : Reader Node} (hvalue : ReadsDistinct value) {fuel : Nat}
    {cs rest : List Char} {pairs : List ((List String × String) × Node)}
    (h : pairs? value fuel cs = some (pairs, rest)) : ∀ p ∈ pairs, p.2.Distinct := by
  induction fuel generalizing cs rest pairs with
  | zero => cases h
  | succ fuel ih =>
    obtain ⟨⟨p, cs₁⟩, hp, h⟩ := Option.bind_eq_some_iff.1 h
    dsimp only at h
    split at h
    case h_1 =>
      cases h
      simpa using pair?_distinct hvalue hp
    case h_2 =>
      obtain ⟨⟨more, cs₂⟩, hmore, h⟩ := Option.bind_eq_some_iff.1 h
      cases h
      exact List.forall_mem_cons.2 ⟨pair?_distinct hvalue hp, ih hmore⟩
    case h_3 => cases h

theorem value?_distinct (depth : Nat) : ReadsDistinct (value? depth) := by
  induction depth with
  | zero =>
    intro cs rest n h
    rw [value?.eq_def] at h
    dsimp only at h
    split at h
    case h_1 => cases h
    case h_4 => cases h
    case h_5 => cases h
    all_goals
      rw [Option.map_eq_some_iff] at h
      obtain ⟨_, _, h⟩ := h
      cases h
      exact .scalar _
  | succ depth ih =>
    intro cs rest n h
    rw [value?.eq_def] at h
    dsimp only at h
    split at h
    case h_1 => cases h
    case h_4 =>
      rw [Option.map_eq_some_iff] at h
      obtain ⟨⟨items, _⟩, hitems, h⟩ := h
      cases h
      exact .array (elements?_distinct ih hitems)
    case h_5 =>
      split at h
      case h_1 =>
        cases h
        exact .table List.nodup_nil (by simp)
      case h_2 =>
        simp only [bind, Option.bind_eq_some_iff, Prod.exists] at h
        obtain ⟨pairs, _, hpairs, n, hn, h⟩ := h
        cases h
        exact bracesTable_distinct (pairs?_distinct ih hpairs) hn
    all_goals
      rw [Option.map_eq_some_iff] at h
      obtain ⟨_, _, h⟩ := h
      cases h
      exact .scalar _

/-! ## Documents -/

/-- A statement is made of nodes with every key once. -/
def Statement.Distinct : Statement → Prop
  | .assign _ _ value => value.Distinct
  | _ => True

/-- What is built so far has every key once. -/
structure Draft.Distinct (d : Draft) : Prop where
  root : d.root.Distinct
  current : ∀ o, d.current = some o → o.entries.Distinct

theorem Draft.Distinct.close {d : Draft} (hd : d.Distinct) {es : Entries}
    (h : d.close = some es) : es.Distinct := by
  rw [Draft.close] at h
  split at h
  case h_1 =>
    cases h
    exact hd.root
  case h_2 o ho =>
    rw [Option.map_eq_some_iff] at h
    obtain ⟨⟨_, _⟩, h, rfl⟩ := h
    have hentries := hd.current o ho
    split at h
    case isTrue =>
      have hitem : (Node.table .header o.entries).Distinct :=
        .table hentries.keys hentries.nodes
      exact (changeAt_distinct (keeps_pushItem hitem) false o.path hd.root h).2
    case isFalse =>
      exact (changeAt_distinct (keeps_pushTable hentries) false o.path hd.root h).2

/-- A statement keeps the keys of what is built apart. -/
theorem Draft.Distinct.add {d d' : Draft} (hd : d.Distinct) {s : Statement} (hs : s.Distinct)
    (h : d.add s = some d') : d'.Distinct := by
  cases s with
  | openTable path key =>
    simp only [Draft.add, bind, Option.bind_eq_some_iff, Prod.exists] at h
    obtain ⟨root, hroot, entries, root', htake, h⟩ := h
    cases h
    obtain ⟨hentries, hroot'⟩ :=
      changeAt_distinct (keeps_takeImplied key) false path (hd.close hroot) htake
    exact ⟨hroot', by rintro _ ⟨⟩; exact hentries⟩
  | openItem path key =>
    simp only [Draft.add, bind, Option.bind_eq_some_iff, Prod.exists] at h
    obtain ⟨root, hroot, _, root', hreserve, h⟩ := h
    cases h
    obtain ⟨-, hroot'⟩ :=
      changeAt_distinct (keeps_reserveItems key) false path (hd.close hroot) hreserve
    exact ⟨hroot', by rintro _ ⟨⟩; exact Entries.distinct_nil⟩
  | assign path key value =>
    rw [Draft.add] at h
    split at h
    case h_1 hnone =>
      obtain ⟨root, hroot, h⟩ := Option.bind_eq_some_iff.1 h
      cases h
      exact ⟨assign_distinct hd.root hs hroot, hd.current⟩
    case h_2 o ho =>
      obtain ⟨entries, hentries, h⟩ := Option.bind_eq_some_iff.1 h
      cases h
      exact ⟨hd.root, by rintro _ ⟨⟩; exact assign_distinct (hd.current o ho) hs hentries⟩

theorem Draft.Distinct.foldlM_add {ss : List Statement} {d d' : Draft} (hd : d.Distinct)
    (hss : ∀ s ∈ ss, s.Distinct) (h : ss.foldlM Draft.add d = some d') : d'.Distinct := by
  induction ss generalizing d with
  | nil =>
    cases h
    exact hd
  | cons s ss ih =>
    obtain ⟨d₁, hs, h⟩ := Option.bind_eq_some_iff.1 h
    have hrest : ∀ t ∈ ss, _ := fun t ht => hss t (List.mem_cons_of_mem _ ht)
    exact ih (hd.add (hss s List.mem_cons_self) hs) hrest h

theorem statement?_distinct {cs rest : List Char} {s : Statement}
    (h : statement? cs = some (s, rest)) : s.Distinct := by
  rw [statement?.eq_def] at h
  split at h
  case h_1 =>
    simp only [bind, Option.bind_eq_some_iff, Prod.exists] at h
    obtain ⟨path, key, _, hkey, _, _, _, _, h⟩ := h
    cases h
    trivial
  case h_2 =>
    simp only [bind, Option.bind_eq_some_iff, Prod.exists] at h
    obtain ⟨path, key, _, hkey, _, _, h⟩ := h
    cases h
    trivial
  case h_3 =>
    simp only [bind, Option.bind_eq_some_iff, Prod.exists] at h
    obtain ⟨path, key, node, _, hpair, h⟩ := h
    cases h
    exact pair?_distinct (value?_distinct 79) hpair

theorem statements?_distinct {fuel : Nat} {cs : List Char} {ss : List Statement}
    (h : statements? fuel cs = some ss) : ∀ s ∈ ss, s.Distinct := by
  induction fuel generalizing cs ss with
  | zero => cases h
  | succ fuel ih =>
    rw [statements?] at h
    split at h
    case h_1 =>
      cases h
      simp
    case h_2 =>
      simp only [bind, Option.bind_eq_some_iff, Prod.exists] at h
      obtain ⟨s, _, hs, _, _, more, hmore, h⟩ := h
      cases h
      exact List.forall_mem_cons.2 ⟨statement?_distinct hs, ih hmore⟩

/-- **In every table of a document each key stands once.** -/
theorem Entries.distinct_ofText? {s : String} {es : Entries} (h : Entries.ofText? s = some es) :
    es.Distinct := by
  simp only [Entries.ofText?, bind, Option.bind_eq_some_iff] at h
  obtain ⟨ss, hss, h⟩ := h
  simp only [Entries.ofStatements, bind, Option.bind_eq_some_iff] at h
  obtain ⟨d, hd, h⟩ := h
  have hempty : Draft.Distinct {} := ⟨Entries.distinct_nil, by simp⟩
  exact (hempty.foldlM_add (statements?_distinct hss) hd).close h

end Chassis.Toml
