import Chassis.Config.Loader
import Chassis.Config.Source
import Chassis.Proofs.Config.Defaults
import Chassis.Proofs.Config.Problems
import Chassis.Proofs.Table

/-!
# The section that a name leads to

> **A component is given what its name leads to in the table of the components, key by key, and
> that table is the one of the document** (`Source.sections_by_name`).

A name is read as keys with dots between them. `Addresses` says what it leads to without taking it
apart: a key without a dot leads to the value under it, and in front of another name it leads
there by way of a table. The walk of `Source.follow` over the parts of a name comes to the same
(`Source.value_eq_some_iff`), so a name can be split at any of its dots.

What the name leads to decides everything: a table is the section, nothing is an empty section, and
any other value is refused under the whole name.
-/

set_option autoImplicit false

namespace Chassis

open Toml

/-! ## Names -/

/-- The name leads from the table to the value. -/
inductive Addresses : Settings → String → Value → Prop
  | key {t : Settings} {k : String} {v : Value} (hdot : '.' ∉ k.toList)
      (h : t.get? k = some v) : Addresses t k v
  | step {t sub : Settings} {k n : String} {v : Value} (hdot : '.' ∉ k.toList)
      (h : t.get? k = some (.table sub)) (hn : Addresses sub n v) : Addresses t (k ++ "." ++ n) v

namespace Source

theorem toList_dotted (p q : String) : (p ++ "." ++ q).toList = p.toList ++ '.' :: q.toList := by
  simp

/-- A name without a dot is one key. -/
theorem keys_of_not_mem {k : String} (h : '.' ∉ k.toList) : keys k = [k] := by
  rw [keys, Text.splitText, Text.split_of_not_mem h, List.map_singleton, String.ofList_toList]

/-- A dot parts the keys before it from those after it. -/
theorem keys_dotted (p q : String) : keys (p ++ "." ++ q) = keys p ++ keys q := by
  rw [keys, keys, keys, Text.splitText, toList_dotted, Text.split_append_cons, List.map_append]
  rfl

theorem keys_ne_nil (n : String) : keys n ≠ [] := by
  rw [keys, Text.splitText]
  exact List.map_eq_nil_iff.not.2 (Text.split_ne_nil '.' n.toList)

/-- A name with a dot is a key, a dot and a shorter name. -/
theorem exists_first_key {n : String} (h : '.' ∈ n.toList) :
    ∃ k m : String, '.' ∉ k.toList ∧ n = k ++ "." ++ m ∧ m.length < n.length := by
  obtain ⟨first, rest, hn, hfirst⟩ := List.eq_append_cons_of_mem h
  have hname : n = String.ofList first ++ "." ++ String.ofList rest := by
    refine String.toList_inj.1 ?_
    rw [toList_dotted, String.toList_ofList, String.toList_ofList, hn]
  refine ⟨String.ofList first, String.ofList rest, ?_, hname, ?_⟩
  · rwa [String.toList_ofList]
  · rw [← String.length_toList, ← String.length_toList, hn, String.toList_ofList,
      List.length_append, List.length_cons]
    omega

/-! ## Following keys -/

theorem follow_append (v : Option Value) (ks ls : List String) :
    follow v (ks ++ ls) = follow (follow v ks) ls := by
  induction ks generalizing v with
  | nil => rfl
  | cons k ks ih => exact ih (v.bind (·.get? k))

theorem follow_none (ks : List String) : follow none ks = none := by
  induction ks with
  | nil => rfl
  | cons k ks ih => exact ih

/-- Keys lead on from tables only. -/
theorem follow_of_not_table {v : Option Value} {ks : List String} (hks : ks ≠ [])
    (h : ∀ t, v ≠ some (.table t)) : follow v ks = none := by
  cases ks with
  | nil => exact absurd rfl hks
  | cons k ks =>
    have hnone : v.bind (·.get? k) = none := by
      cases v with
      | none => rfl
      | some v =>
        cases v with
        | table t => exact absurd rfl (h t)
        | _ => rfl
    rw [follow, hnone, follow_none]

theorem value_of_not_mem (t : Settings) {k : String} (h : '.' ∉ k.toList) :
    (ofSettings t k).value = t.get? k := by
  rw [ofSettings, keys_of_not_mem h]
  rfl

/-- What a name with a dot leads to, by way of what the part before the dot leads to. -/
theorem value_dotted (t : Settings) (p q : String) :
    (ofSettings t (p ++ "." ++ q)).value = follow (ofSettings t p).value (keys q) := by
  rw [ofSettings, keys_dotted, follow_append]
  rfl

/-- **The walk along the parts of a name ends where the name leads.** -/
theorem value_eq_some_iff {t : Settings} {n : String} {v : Value} :
    (ofSettings t n).value = some v ↔ Addresses t n v := by
  constructor
  · -- The name behind the first dot is shorter.
    induction hlen : n.length using Nat.strongRecOn generalizing t n with
    | ind len ih =>
      intro h
      by_cases hmem : '.' ∈ n.toList
      · obtain ⟨k, m, hdot, rfl, hlt⟩ := exists_first_key hmem
        rw [value_dotted, value_of_not_mem t hdot] at h
        by_cases htable : ∃ sub, t.get? k = some (.table sub)
        · obtain ⟨sub, hsub⟩ := htable
          rw [hsub] at h
          exact .step hdot hsub (ih m.length (hlen ▸ hlt) rfl h)
        · rw [follow_of_not_table (keys_ne_nil m) (fun sub hsub => htable ⟨sub, hsub⟩)] at h
          cases h
      · rw [value_of_not_mem t hmem] at h
        exact .key hmem h
  · intro h
    induction h with
    | key hdot h => rw [value_of_not_mem _ hdot, h]
    | step hdot h _ ih =>
      rw [value_dotted, value_of_not_mem _ hdot, h]
      exact ih

/-! ## Sections -/

variable {t sub : Settings} {n : String}

theorem raw_eq_ok_iff :
    (ofSettings t n).raw = .ok sub ↔
      Addresses t n (.table sub) ∨ sub = [] ∧ ∀ v, ¬ Addresses t n v := by
  simp only [← value_eq_some_iff, raw]
  cases (ofSettings t n).value with
  | none => simp [eq_comm]
  | some v => cases v <;> simp

/-- A name is refused under itself, and only where it leads to a value that is no table. -/
theorem raw_eq_error_iff {e : ScanError} :
    (ofSettings t n).raw = .error e ↔
      e = .notATable n ∧ ∃ v, Addresses t n v ∧ ∀ sub, v ≠ .table sub := by
  simp only [← value_eq_some_iff, raw]
  cases (ofSettings t n).value with
  | none => simp
  | some v => cases v <;> simp [ofSettings, eq_comm]

/-- Two sections with the same value differ in the name under which it may be refused. -/
theorem raw_of_value_eq {s s' : Source} (h : s.value = s'.value) :
    s.raw = s'.raw.mapError fun _ => .notATable s.name := by
  obtain ⟨name, value⟩ := s
  obtain ⟨name', value'⟩ := s'
  obtain rfl : value = value' := h
  cases value with
  | none => rfl
  | some v => cases v <;> rfl

/-- By way of a table, a name has the section that the rest of it has there, and is refused where
the rest is, but under the whole name. -/
theorem raw_dotted_of_table {p : String} (h : Addresses t p (.table sub)) (q : String) :
    (ofSettings t (p ++ "." ++ q)).raw =
      (ofSettings sub q).raw.mapError fun _ => .notATable (p ++ "." ++ q) := by
  have hvalue : (ofSettings t (p ++ "." ++ q)).value = (ofSettings sub q).value := by
    rw [value_dotted, value_eq_some_iff.2 h]
    rfl
  exact raw_of_value_eq hvalue

/-- A name leads nowhere if what stands before one of its dots leads to no table. -/
theorem raw_dotted_of_not_table {p : String} (h : ∀ sub, ¬ Addresses t p (.table sub))
    (q : String) : (ofSettings t (p ++ "." ++ q)).raw = .ok [] := by
  have hnone : (ofSettings t (p ++ "." ++ q)).value = none := by
    rw [value_dotted]
    exact follow_of_not_table (keys_ne_nil q) fun sub hsub => h sub (value_eq_some_iff.1 hsub)
  rw [raw, hnone]

/-- Two tables in which a name leads to the same value have the same section of that name. -/
theorem raw_congr {t' : Settings} (h : ∀ v, Addresses t' n v ↔ Addresses t n v) :
    (ofSettings t' n).raw = (ofSettings t n).raw := by
  have hvalue : (ofSettings t' n).value = (ofSettings t n).value :=
    Option.ext fun v => by rw [value_eq_some_iff, value_eq_some_iff, h]
  rw [raw, raw, hvalue]
  rfl

end Source

/-! ## The table of the components -/

namespace Config

/-- No table in the node begins with the key of a date. -/
inductive Undated : Node → Prop
  | scalar (s : Scalar) : Undated (.scalar s)
  | array {items : List Node} (h : ∀ n ∈ items, Undated n) : Undated (.array items)
  | tables {items : List Node} (h : ∀ n ∈ items, Undated n) : Undated (.tables items)
  | table {origin : Origin} {es : Entries} (hmark : dateMark? es = none)
      (h : ∀ e ∈ es, Undated e.2) : Undated (.table origin es)

mutual

/-- Where no table is taken for a date, nodes are what they were. -/
theorem withDates_of_undated : ∀ {n : Node}, Undated n → withDates n = .ok n
  | .scalar s, _ => rfl
  | .array items, h => by
    cases h with
    | array h => rw [withDates, itemsWithDates_of_undated h, ok_bind]
  | .tables items, h => by
    cases h with
    | tables h => rw [withDates, itemsWithDates_of_undated h, ok_bind]
  | .table origin es, h => by
    cases h with
    | table hmark h => rw [withDates, hmark, entriesWithDates_of_undated h, ok_bind]

theorem itemsWithDates_of_undated : ∀ {items : List Node}, (∀ n ∈ items, Undated n) →
    itemsWithDates items = .ok items
  | [], _ => rfl
  | item :: rest, h => by
    obtain ⟨hitem, hrest⟩ := List.forall_mem_cons.1 h
    rw [itemsWithDates, withDates_of_undated hitem, ok_bind, itemsWithDates_of_undated hrest,
      ok_bind]

theorem entriesWithDates_of_undated : ∀ {es : List (String × Node)}, (∀ e ∈ es, Undated e.2) →
    entriesWithDates es = .ok es
  | [], _ => rfl
  | (key, node) :: rest, h => by
    obtain ⟨hnode, hrest⟩ := List.forall_mem_cons.1 h
    rw [entriesWithDates, withDates_of_undated hnode, ok_bind, entriesWithDates_of_undated hrest,
      ok_bind]

end

/-- Under each key the settings of a table have the value of the node there. -/
theorem get?_entriesToSettings (es : Entries) (key : String) :
    Settings.get? (entriesToSettings es) key = (es.get? key).map Node.toValue := by
  induction es with
  | nil => rfl
  | cons e es ih =>
    obtain ⟨k, node⟩ := e
    rw [Settings.get?, entriesToSettings, find?_insertSorted, Entries.get?, List.find?_cons]
    by_cases hkey : k = key
    · simp [hkey]
    · rw [if_neg hkey, beq_false_of_ne hkey]
      exact ih

theorem ascending_entriesToSettings : ∀ es : Entries, Ascending (entriesToSettings es)
  | [] => List.Pairwise.nil
  | (key, node) :: es => ascending_insertSorted key node.toValue (ascending_entriesToSettings es)

namespace Section

variable {α β : Type} {s : Section α} {es : Entries} {a a' : α} {key : String} {part : α → β}

/-- What the entries of other keys leave alone is as it was. -/
theorem part_readEntries_of_foreign
    (hother : ∀ e : String × Node, e.1 ≠ key → ∀ {a a'}, s.put e a = .ok a' → part a' = part a)
    (hkey : ∀ e ∈ es, e.1 ≠ key) (h : s.readEntries es a = .ok a') : part a' = part a := by
  induction es generalizing a with
  | nil =>
    cases h
    rfl
  | cons e es ih =>
    obtain ⟨he, hes⟩ := List.forall_mem_cons.1 hkey
    rw [readEntries_cons] at h
    obtain ⟨b, hput, h⟩ := bind_eq_ok.1 h
    rw [ih hes h, hother e he hput]

/-- A part of the section that only the entry of one key sets is what that entry says. -/
theorem part_readEntries {read : Node → Except String β} {node : Node}
    (hset : ∀ {a a'}, s.put (key, node) a = .ok a' → read node = .ok (part a'))
    (hother : ∀ e : String × Node, e.1 ≠ key → ∀ {a a'}, s.put e a = .ok a' → part a' = part a)
    (hes : (es.map Prod.fst).Nodup) (hmem : (key, node) ∈ es)
    (h : s.readEntries es a = .ok a') : read node = .ok (part a') := by
  induction es generalizing a with
  | nil => cases hmem
  | cons e es ih =>
    rw [readEntries_cons] at h
    obtain ⟨b, hput, hrest⟩ := bind_eq_ok.1 h
    rw [List.map_cons, List.nodup_cons] at hes
    rcases List.mem_cons.1 hmem with rfl | hmem
    · have hkey : ∀ e ∈ es, e.1 ≠ key := fun e he hkey =>
        hes.1 (List.mem_map.2 ⟨e, he, hkey⟩)
      rw [part_readEntries_of_foreign hother hkey hrest]
      exact hset hput
    · exact ih hes.2 hmem hrest

end Section

/-- The entry of another key leaves the components alone. -/
theorem components_put {e : String × Node} (he : e.1 ≠ "components") {c c' : Config}
    (h : documentSection.put e c = .ok c') : c'.components = c.components := by
  rcases documentSection.put_cases e with ⟨f, hf, hkey, hput⟩ | hput
  · rw [hput] at h
    rcases documentSection_settings hf with
      ⟨hf, hputs⟩ | ⟨hf, hputs⟩ | ⟨hf, hputs⟩ | ⟨hf, hputs⟩ | ⟨hf, hputs⟩ | ⟨hf, -⟩
    case inr.inr.inr.inr.inr => exact absurd (hkey.symm.trans hf) he
    all_goals
      obtain ⟨b, rfl, -⟩ := hputs.exists_of_set h
      rfl
  · rw [hput] at h
    cases h
    rfl

/-- The components of a document are what it has under that key, and nothing without it. -/
theorem components_ofEntries {es : Entries} {c : Config} (hes : es.Distinct)
    (h : ofEntries es = .ok c) :
    (es.get? "components" = none → c.components = []) ∧
      ∀ node, es.get? "components" = some node → settings node = .ok c.components := by
  obtain ⟨hread, -⟩ := Section.read_table_eq_ok_iff.1 h
  constructor
  · intro hget
    exact Section.part_readEntries_of_foreign (fun _ he => components_put he)
      (Entries.get?_eq_none hget) hread
  · intro node hget
    refine Section.part_readEntries (fun {c c'} hput => ?_) (fun _ he => components_put he)
      hes.keys (Entries.mem_of_get? hget) hread
    obtain ⟨t, ht, hput⟩ := bind_eq_ok.1
      (show settings node >>= (fun t => .ok { c with components := t }) = .ok c' from hput)
    cases hput
    exact ht

/-- A document of components only. -/
theorem ofEntries_components {node : Node} {t : Settings} (h : settings node = .ok t) :
    ofEntries [("components", node)] = .ok { components := t } := by
  have hput : documentSection.put ("components", node) {} = .ok { components := t } := by
    show (settings node >>= fun t => .ok { ({} : Config) with components := t }) = _
    rw [h, ok_bind]
  refine Section.read_table_eq_ok_iff.2 ⟨?_, rfl⟩
  rw [Section.readEntries_cons, hput]
  rfl

/-- Settings that are loaded are those of the document, but for the profile, and have no
problems. -/
theorem parse_eq_ok_iff {content : String} {profile : Option String} {c : Config} :
    parse content profile = .ok c ↔
      ∃ es c', Entries.ofText? content = some es ∧ ofEntries es = .ok c' ∧
        c = c'.withProfile profile ∧ c.problems = [] := by
  constructor
  · intro h
    have hproblems := problems_of_parse h
    rw [parse] at h
    split at h
    case h_1 => cases h
    case h_2 es hdoc =>
      split at h
      case h_1 => cases h
      case h_2 c' hread =>
        dsimp only at h
        split at h
        case isFalse => cases h
        case isTrue =>
          cases h
          exact ⟨es, c', hdoc, hread, rfl, hproblems⟩
  · rintro ⟨es, c', hdoc, hread, rfl, hproblems⟩
    simp only [parse, hdoc, hread]
    rw [hproblems]
    rfl

theorem components_withProfile (c : Config) (profile : Option String) :
    (c.withProfile profile).components = c.components := by
  cases profile with
  | none => rfl
  | some name =>
    rw [withProfile]
    split <;> rfl

/-- **The table of the components is the one of the document**, and an empty one without it. -/
theorem components_parse {content : String} {profile : Option String} {c : Config}
    (h : parse content profile = .ok c) :
    ∃ es, Entries.ofText? content = some es ∧
      (es.get? "components" = none → c.components = []) ∧
      ∀ origin sub, es.get? "components" = some (.table origin sub) →
        (∀ e ∈ sub, Undated e.2) →
          Ascending c.components ∧
            ∀ key, Settings.get? c.components key = (Entries.get? sub key).map Node.toValue := by
  obtain ⟨es, c', hdoc, hread, rfl, -⟩ := parse_eq_ok_iff.1 h
  obtain ⟨hnone, hsome⟩ := components_ofEntries (Entries.distinct_ofText? hdoc) hread
  rw [components_withProfile]
  refine ⟨es, hdoc, hnone, fun origin sub hget hundated => ?_⟩
  have hsettings := hsome _ hget
  rw [settings, entriesWithDates_of_undated hundated, ok_bind] at hsettings
  rw [← Except.ok.inj hsettings]
  exact ⟨ascending_entriesToSettings sub, get?_entriesToSettings sub⟩

end Config

namespace Source

/-- **A component is given what its name leads to in the table of the components**, which is the one
of the document. The section of a name is found key by key, and so from any table on the way; it is
the table that the name leads to, or empty if it leads nowhere, and the name is refused if it leads
to any other value. Nothing else of the document has a part in it. -/
theorem sections_by_name :
    (∀ (content : String) (profile : Option String) (c : Config),
      Config.parse content profile = .ok c →
      ∃ es, Entries.ofText? content = some es ∧
        (es.get? "components" = none → c.components = []) ∧
        ∀ origin sub, es.get? "components" = some (.table origin sub) →
          (∀ e ∈ sub, Config.Undated e.2) →
            Ascending c.components ∧
              ∀ key, Settings.get? c.components key = (Entries.get? sub key).map Node.toValue) ∧
    ∀ t : Settings,
      (∀ p q : String,
        (∀ sub, Addresses t p (.table sub) →
          (ofSettings t (p ++ "." ++ q)).raw =
            (ofSettings sub q).raw.mapError fun _ => .notATable (p ++ "." ++ q)) ∧
        ((∀ sub, ¬ Addresses t p (.table sub)) → (ofSettings t (p ++ "." ++ q)).raw = .ok [])) ∧
      ∀ n : String,
        (∀ sub, (ofSettings t n).raw = .ok sub ↔
          Addresses t n (.table sub) ∨ sub = [] ∧ ∀ v, ¬ Addresses t n v) ∧
        (∀ e, (ofSettings t n).raw = .error e ↔
          e = .notATable n ∧ ∃ v, Addresses t n v ∧ ∀ sub, v ≠ .table sub) ∧
        ∀ t', (∀ v, Addresses t' n v ↔ Addresses t n v) →
          (ofSettings t' n).raw = (ofSettings t n).raw := by
  refine ⟨fun content profile c h => Config.components_parse h, fun t => ⟨fun p q => ?_,
    fun n => ?_⟩⟩
  · constructor
    · intro sub h
      exact raw_dotted_of_table h q
    · intro h
      exact raw_dotted_of_not_table h q
  · exact ⟨fun sub => raw_eq_ok_iff, fun e => raw_eq_error_iff, fun t' h => raw_congr h⟩

/-- A table with a number, and a table in it, in the text of a document and as settings. -/
theorem sections_by_name_replica :
    let replica : Settings := [("name", .scalar (.text "ro"))]
    let db : Settings := [("replica", .table replica), ("size", .scalar (.integer 16))]
    let c : Config := { components := [("db", .table db)] }
    Config.parse "[components.db]\nsize = 16\nreplica = \x7b name = 'ro' \x7d\n" = .ok c ∧
      Settings.get? c.components "db" = some (.table db) ∧
      (ofSettings c.components "db.replica").raw = .ok replica ∧
      (ofSettings c.components "db.size").raw = .error (.notATable "db.size") ∧
      (ofSettings c.components "db.size.name").raw = .ok [] := by
  intro replica db c
  let sub : Entries := [("db", .table .header [("size", .scalar (.integer 16)),
    ("replica", .table .braces [("name", .scalar (.text "ro"))])])]
  have hparse :
      Config.parse "[components.db]\nsize = 16\nreplica = \x7b name = 'ro' \x7d\n" = .ok c :=
    Config.parse_eq_ok_iff.2
      ⟨[("components", .table .implied sub)], c, rfl, rfl, rfl, by decide +kernel⟩
  obtain ⟨hcomponents, hsections⟩ := sections_by_name
  obtain ⟨hdotted, hname⟩ := hsections c.components
  have hdb : Addresses c.components "db" (.table db) := .key (by decide) rfl
  have hsize : Addresses c.components ("db" ++ "." ++ "size") (.scalar (.integer 16)) :=
    .step (by decide) rfl (.key (by decide) rfl)
  refine ⟨hparse, ?_, ?_, ?_, ?_⟩
  · obtain ⟨es, hdoc, -, htable⟩ := hcomponents _ _ _ hparse
    have hes : es = [("components", .table .implied sub)] := Option.some.inj (hdoc.symm.trans rfl)
    have hundated : ∀ e ∈ sub, Config.Undated e.2 := by
      intro e he
      obtain rfl := List.mem_singleton.1 he
      refine .table rfl fun e he => ?_
      rcases List.mem_cons.1 he with rfl | he
      · exact .scalar _
      · obtain rfl := List.mem_singleton.1 he
        refine .table rfl fun e he => ?_
        obtain rfl := List.mem_singleton.1 he
        exact .scalar _
    exact (htable .implied sub (by rw [hes]; rfl) hundated).2 "db"
  · exact ((hdotted "db" "replica").1 db hdb).trans rfl
  · exact ((hname "db.size").2.1 _).2 ⟨rfl, _, hsize, fun sub hsub => by cases hsub⟩
  · refine (hdotted "db.size" "name").2 fun sub hsub => ?_
    have := (value_eq_some_iff.2 hsub).symm.trans (value_eq_some_iff.2 hsize)
    cases this

/-- A name that leads to a number is refused under the whole name, not under the rest of it; an
empty section does not tell that the name leads nowhere; a document without a table of components
may still have components, namely a date; and a table of components may be taken for a date. -/
theorem not_always_sections_by_name :
    (¬ ∀ (t sub : Settings) (p q : String), Addresses t p (.table sub) →
      (ofSettings t (p ++ "." ++ q)).raw = (ofSettings sub q).raw) ∧
    (¬ ∀ (t : Settings) (n : String),
      (ofSettings t n).raw = .ok [] ↔ ∀ v, ¬ Addresses t n v) ∧
    (¬ ∀ (content : String) (es : Entries) (c : Config), Entries.ofText? content = some es →
      Config.parse content = .ok c →
      (∀ origin sub, es.get? "components" ≠ some (.table origin sub)) → c.components = []) ∧
    ¬ ∀ (content : String) (es sub : Entries) (c : Config) (origin : Origin),
      Entries.ofText? content = some es → Config.parse content = .ok c →
      es.get? "components" = some (.table origin sub) →
      ∀ key, Settings.get? c.components key = (sub.get? key).map Node.toValue := by
  refine ⟨fun h => ?_, fun h => ?_, fun h => ?_, fun h => ?_⟩
  · have := h [("p", .table [("q", .scalar (.integer 1))])] _ "p" "q" (.key (by decide) rfl)
    exact absurd (Except.error.inj this) (by decide)
  · exact (h [("p", .table [])] "p").1 rfl (.table []) (.key (by decide) rfl)
  · let date : Node := .scalar (.datetime ⟨some ⟨1979, 5, 27⟩, none, none⟩)
    let c : Config := { components := [(Config.dateKey, .scalar (.text "1979-05-27"))] }
    have hdoc : Entries.ofText? "components = 1979-05-27\n" = some [("components", date)] := rfl
    have hparse : Config.parse "components = 1979-05-27\n" = .ok c :=
      Config.parse_eq_ok_iff.2 ⟨_, c, hdoc, rfl, rfl, by decide +kernel⟩
    have := h _ _ c hdoc hparse fun origin sub hsub => by cases hsub
    cases this
  · let sub : Entries := [("db", .table .header [(Config.dateKey, .scalar (.text "1979-05-27"))])]
    let c : Config :=
      { components := [("db", .scalar (.datetime ⟨some ⟨1979, 5, 27⟩, none, none⟩))] }
    have hdoc : Entries.ofText? "[components.db]\n'$__toml_private_datetime' = '1979-05-27'\n" =
        some [("components", .table .implied sub)] := rfl
    have hdate : Datetime.ofLaxText? "1979-05-27".toList =
        some ⟨some ⟨1979, 5, 27⟩, none, none⟩ := by decide +kernel
    have hread : Config.settings (.table .implied sub) = .ok c.components := by
      simp only [Config.settings, sub, Config.entriesWithDates, Config.withDates, Config.dateMark?,
        if_true, Config.date, hdate]
      rfl
    have hparse :
        Config.parse "[components.db]\n'$__toml_private_datetime' = '1979-05-27'\n" = .ok c :=
      Config.parse_eq_ok_iff.2
        ⟨_, c, hdoc, Config.ofEntries_components hread, rfl, by decide +kernel⟩
    have := h _ _ sub c .implied hdoc hparse rfl "db"
    cases this

end Source

end Chassis
