import Chassis.Config.Schema
import Chassis.Proofs.Outcome
import Chassis.Proofs.Toml.Keys

/-!
# Leaving a setting out

> **A document without one of its keys reads as before, with the default in place of that setting;
> only the address of a place to listen cannot be left out** (`Config.ofEntries_without`).

A section is read by laying its entries onto its defaults, one after another. So reading commutes
with anything that does to the result, entry by entry, what it does to the document
(`Section.readEntries_filterMap`): leaving an entry out at the bottom
(`Section.readEntries_remove`), and replacing the table it stands in on the way up
(`Section.readEntries_replace`). The keys of a document are distinct, so what is replaced is the one
entry that leads to the setting.
-/

set_option autoImplicit false

namespace Chassis

open Toml

/-! ## Documents without a key -/

namespace Toml.Entries

/-- The table at a path. -/
def sectionAt? (es : Entries) : List String → Option Entries
  | [] => some es
  | name :: path =>
    match es.get? name with
    | some (.table _ sub) => sectionAt? sub path
    | _ => none

/-- The entries without a key of the table at a path. -/
def without (es : Entries) (key : String) : List String → Entries
  | [] => es.remove key
  | name :: path =>
    match es.get? name with
    | some (.table origin sub) => es.replace name (.table origin (without sub key path))
    | _ => es

theorem without_cons {es sub : Entries} {name : String} {origin : Origin}
    (h : es.get? name = some (.table origin sub)) (key : String) (path : List String) :
    es.without key (name :: path) = es.replace name (.table origin (sub.without key path)) := by
  rw [without, h]

theorem sectionAt?_cons {es sub : Entries} {name : String} {path : List String}
    (h : es.sectionAt? (name :: path) = some sub) :
    ∃ (origin : Origin) (below : Entries), es.get? name = some (.table origin below) ∧
      below.sectionAt? path = some sub := by
  rw [sectionAt?] at h
  split at h
  case h_1 origin below hget => exact ⟨origin, below, hget, h⟩
  case h_2 => cases h

theorem get?_remove (es : Entries) (key key' : String) :
    (es.remove key).get? key' = if key' = key then none else es.get? key' := by
  rw [get?, remove, List.find?_filter]
  split
  case isTrue h =>
    rw [Option.map_eq_none_iff, List.find?_eq_none]
    intro e _
    simp [h]
  case isFalse h =>
    rw [get?]
    congr 2
    funext e
    by_cases he : e.1 = key'
    · simp [he, h]
    · simp [he]

end Toml.Entries

/-! ## Settings with a default put back -/

def Identity.withDefault (a : Identity) (key : String) : Identity :=
  { name := if key = "name" then ({} : Identity).name else a.name
    profile := if key = "profile" then ({} : Identity).profile else a.profile }

def Logging.withDefault (a : Logging) (key : String) : Logging :=
  { level := if key = "level" then ({} : Logging).level else a.level
    format := if key = "format" then ({} : Logging).format else a.format }

/-- The limit, with the default in its place where the key is the one that it has. -/
def Limit.withDefault (a : Limit) (own key : String) : Limit :=
  { seconds := if key = own then ({} : Limit).seconds else a.seconds }

def Listener.withDefault (a default : Listener) (key : String) : Listener :=
  { enabled := if key = "enabled" then default.enabled else a.enabled
    address := if key = "address" then default.address else a.address }

namespace Config

/-- The sections below `endpoints`. -/
inductive Place
  | rest
  | metrics
  | rpc
deriving DecidableEq, Repr

def Place.name : Place → String
  | rest => "rest"
  | metrics => "metrics"
  | rpc => "rpc"

/-- The sections whose keys are settings. -/
inductive Part
  | app
  | logging
  | shutdown
  | http
  | endpoint (place : Place)
deriving DecidableEq, Repr

/-- Where the section stands in a document. -/
def Part.path : Part → List String
  | app => ["app"]
  | logging => ["logging"]
  | shutdown => ["shutdown"]
  | http => ["http"]
  | endpoint place => ["endpoints", place.name]

def listenersWithDefault (a : Listeners) (place : Place) (key : String) : Listeners :=
  let d : Listeners := {}
  match place with
  | .rest => { a with rest := a.rest.withDefault d.rest key }
  | .metrics => { a with metrics := a.metrics.withDefault d.metrics key }
  | .rpc => { a with rpc := a.rpc.withDefault d.rpc key }

/-- The settings with the default in place of one of them: the one under a key of a section. Where
there is no such setting, all are as they were. -/
def withDefault (c : Config) (part : Part) (key : String) : Config :=
  match part with
  | .app => { c with app := c.app.withDefault key }
  | .logging => { c with logging := c.logging.withDefault key }
  | .shutdown => { c with shutdown := c.shutdown.withDefault "timeout_secs" key }
  | .http => { c with http := c.http.withDefault "request_timeout_secs" key }
  | .endpoint place => { c with endpoints := listenersWithDefault c.endpoints place key }

/-- What leaving a key out of a section comes to. -/
def Part.leftOut (part : Part) (key : String) : Except String Unit :=
  match part with
  | .endpoint _ => if key = "address" then .error "missing field `address`" else .ok ()
  | _ => .ok ()

/-! ## Reading entry by entry -/

/-- What one entry does to a section that is being read. -/
def Section.put {α : Type} (s : Section α) (e : String × Node) (a : α) : Except String α :=
  match s.settings.find? (·.key == e.1) with
  | some f => f.set e.2 a
  | none => .ok a

/-- A setting is read in the same way before and after a change of its section. -/
def Setting.Commutes {α : Type} (f : Setting α) (φ : α → α) : Prop :=
  ∀ (n : Node) (a a' : α), f.set n a = .ok a' → f.set n (φ a) = .ok (φ a')

/-- A change of the section makes up for the setting. -/
def Setting.CoveredBy {α : Type} (f : Setting α) (φ : α → α) : Prop :=
  ∀ (n : Node) (a a' : α), f.set n a = .ok a' → φ a' = φ a

/-- The change makes up for what is set under a key, and for nothing else. -/
def Section.Resets {α : Type} (s : Section α) (key : String) (φ : α → α) : Prop :=
  ∀ f ∈ s.settings, if f.key = key then f.CoveredBy φ else f.Commutes φ

/-- A setting is read by itself and then put in its place. -/
structure Setting.Puts {α β : Type} (f : Setting α) (read : Node → Except String β)
    (put : α → β → α) : Prop where
  set_eq : ∀ n a, f.set n a = read n >>= fun b => .ok (put a b)

namespace Setting

variable {α β : Type} {f : Setting α} {read : Node → Except String β} {put : α → β → α}
  {φ : α → α}

theorem Puts.exists_of_set (h : f.Puts read put) {n : Node} {a a' : α} (hset : f.set n a = .ok a') :
    ∃ b, a' = put a b ∧ ∀ c, f.set n c = .ok (put c b) := by
  rw [h.set_eq] at hset
  cases hn : read n with
  | error m => rw [hn] at hset; cases hset
  | ok b =>
    rw [hn] at hset
    cases hset
    exact ⟨b, rfl, fun c => by rw [h.set_eq, hn]; rfl⟩

theorem Puts.commutes (h : f.Puts read put) (hφ : ∀ a b, φ (put a b) = put (φ a) b) :
    f.Commutes φ := by
  intro n a a' hset
  obtain ⟨b, rfl, hb⟩ := h.exists_of_set hset
  rw [hb, hφ]

theorem Puts.coveredBy (h : f.Puts read put) (hφ : ∀ a b, φ (put a b) = φ a) :
    f.CoveredBy φ := by
  intro n a a' hset
  obtain ⟨b, rfl, -⟩ := h.exists_of_set hset
  exact hφ a b

/-- A change that covers the place of a setting, if its key is the one, and leaves it alone
otherwise. -/
theorem Puts.resets (h : f.Puts read put) {key : String}
    (hφ : ∀ a b, φ (put a b) = if f.key = key then φ a else put (φ a) b) :
    if f.key = key then f.CoveredBy φ else f.Commutes φ := by
  split
  case isTrue hkey => exact h.coveredBy fun a b => by rw [hφ, if_pos hkey]
  case isFalse hkey => exact h.commutes fun a b => by rw [hφ, if_neg hkey]

end Setting

namespace Section

variable {α : Type} {s : Section α} {es : Entries} {a a' : α} {φ : α → α} {key : String}

theorem readEntries_cons (s : Section α) (e : String × Node) (es : Entries) (a : α) :
    s.readEntries (e :: es) a = s.put e a >>= s.readEntries es := by
  obtain ⟨key, node⟩ := e
  rw [readEntries, put]
  cases s.settings.find? (·.key == key) with
  | none => rfl
  | some f => rfl

/-- An entry of a key that belongs to a setting is for that setting, any other is passed over. -/
theorem put_cases (s : Section α) (e : String × Node) :
    (∃ f ∈ s.settings, f.key = e.1 ∧ ∀ a, s.put e a = f.set e.2 a) ∨ ∀ a, s.put e a = .ok a := by
  cases hfind : s.settings.find? (·.key == e.1) with
  | none => exact .inr fun a => by rw [put, hfind]
  | some f =>
    refine .inl ⟨f, List.mem_of_find?_eq_some hfind, ?_, fun a => by rw [put, hfind]⟩
    simpa using List.find?_some hfind

/-- An entry of another key does the same to a section before and after a change. -/
theorem put_commutes (hother : ∀ f ∈ s.settings, f.key ≠ key → f.Commutes φ)
    {e : String × Node} (he : e.1 ≠ key) (h : s.put e a = .ok a') :
    s.put e (φ a) = .ok (φ a') := by
  rcases s.put_cases e with ⟨f, hf, hkey, hput⟩ | hput
  · rw [hput] at h ⊢
    exact hother f hf (hkey ▸ he) _ _ _ h
  · rw [hput] at h ⊢
    cases h
    rfl

/-- **Reading commutes with a change that each entry commutes with.** An entry that is left out is
one that the change covers up. -/
theorem readEntries_filterMap {edit : String × Node → Option (String × Node)}
    (hkept : ∀ e ∈ es, ∀ e', edit e = some e' → ∀ {a a'}, s.put e a = .ok a' →
      s.put e' (φ a) = .ok (φ a'))
    (hleft : ∀ e ∈ es, edit e = none → ∀ {a a'}, s.put e a = .ok a' → φ a' = φ a)
    (h : s.readEntries es a = .ok a') : s.readEntries (es.filterMap edit) (φ a) = .ok (φ a') := by
  induction es generalizing a with
  | nil =>
    cases h
    rfl
  | cons e es ih =>
    rw [readEntries_cons] at h
    cases hput : s.put e a with
    | error m => rw [hput] at h; cases h
    | ok b =>
      rw [hput, ok_bind] at h
      have htail := ih (fun e he => hkept e (List.mem_cons_of_mem _ he))
        (fun e he => hleft e (List.mem_cons_of_mem _ he)) h
      cases hedit : edit e with
      | none =>
        rw [List.filterMap_cons_none hedit, ← hleft e List.mem_cons_self hedit hput]
        exact htail
      | some e' =>
        rw [List.filterMap_cons_some hedit, readEntries_cons,
          hkept e List.mem_cons_self e' hedit hput, ok_bind]
        exact htail

theorem Resets.commutes (hφ : s.Resets key φ) : ∀ f ∈ s.settings, f.key ≠ key → f.Commutes φ := by
  intro f hf hkey
  have := hφ f hf
  rwa [if_neg hkey] at this

theorem Resets.coveredBy (hφ : s.Resets key φ) {f : Setting α} (hf : f ∈ s.settings)
    (hkey : f.key = key) : f.CoveredBy φ := by
  have := hφ f hf
  rwa [if_pos hkey] at this

/-- Without the entries of a key, a section is read as if they were covered up. -/
theorem readEntries_remove (hφ : s.Resets key φ) (h : s.readEntries es a = .ok a') :
    s.readEntries (es.remove key) (φ a) = .ok (φ a') := by
  rw [Entries.remove, ← List.filterMap_eq_filter]
  refine readEntries_filterMap (fun e _ e' hedit _ _ hput => ?_) (fun e _ hedit _ _ hput => ?_) h
  · obtain ⟨rfl, hne⟩ := Option.guard_eq_some_iff.1 hedit
    exact put_commutes hφ.commutes (by simpa using hne) hput
  · have hkey : e.1 = key := by simpa using Option.guard_eq_none_iff.1 hedit
    rcases s.put_cases e with ⟨f, hf, hfkey, hput'⟩ | hput'
    · exact hφ.coveredBy hf (hfkey.trans hkey) _ _ _ (hput' _ ▸ hput)
    · rw [hput'] at hput
      cases hput
      rfl

/-- With another node under a key, a section is read as the change has it, if the change does to the
result what the other node does. -/
theorem readEntries_replace {node node' : Node} (hes : es.Distinct)
    (hget : es.get? key = some node) (hother : ∀ f ∈ s.settings, f.key ≠ key → f.Commutes φ)
    (hsame : ∀ {a a'}, s.put (key, node) a = .ok a' → s.put (key, node') (φ a) = .ok (φ a'))
    (h : s.readEntries es a = .ok a') :
    s.readEntries (es.replace key node') (φ a) = .ok (φ a') := by
  rw [Entries.replace, ← List.filterMap_eq_map]
  refine readEntries_filterMap (fun e he e' hedit _ _ hput => ?_) (fun e _ hedit => ?_) h
  · cases hedit
    by_cases hkey : e.1 = key
    · obtain rfl : e = (key, node) := by
        obtain ⟨key', node'⟩ := e
        obtain rfl : key' = key := hkey
        rw [Option.some.inj ((hes.get?_of_mem he).symm.trans hget)]
      dsimp only
      rw [if_pos rfl]
      exact hsame hput
    · dsimp only
      rw [if_neg hkey]
      exact put_commutes hother hkey hput
  · cases hedit

/-- Where the other node under a key cannot be read, neither can the section, if it could before. -/
theorem readEntries_replace_error {node' : Node} {m : String} (hkey : (es.get? key).isSome)
    (hbad : ∀ a, s.put (key, node') a = .error m) (h : s.readEntries es a = .ok a') :
    s.readEntries (es.replace key node') a = .error m := by
  induction es generalizing a with
  | nil => cases hkey
  | cons e es ih =>
    rw [readEntries_cons] at h
    rw [Entries.replace, List.map_cons, readEntries_cons]
    by_cases he : e.1 = key
    · rw [if_pos he, hbad]
      rfl
    · rw [if_neg he]
      cases hput : s.put e a with
      | error m => rw [hput] at h; cases h
      | ok b =>
        rw [hput, ok_bind] at h
        rw [ok_bind]
        refine ih ?_ h
        simpa [Entries.get?, he] using hkey

/-- What is read of a whole is read of each entry. -/
theorem exists_put_of_readEntries (h : s.readEntries es a = .ok a') {e : String × Node}
    (he : e ∈ es) : ∃ b b', s.put e b = .ok b' := by
  induction es generalizing a with
  | nil => cases he
  | cons e₀ es ih =>
    rw [readEntries_cons] at h
    cases hput : s.put e₀ a with
    | error m => rw [hput] at h; cases h
    | ok b =>
      rw [hput, ok_bind] at h
      rcases List.mem_cons.1 he with rfl | he
      · exact ⟨a, b, hput⟩
      · exact ih h he

/-! ## Sections that are read whole -/

variable {d : α} {origin : Origin}

theorem read_table (s : Section α) (d : α) (origin : Origin) (es : Entries) :
    s.read d (.table origin es) =
      s.readEntries es d >>= fun a => s.checkRequired es >>= fun _ => .ok a := rfl

theorem read_table_eq_ok_iff :
    s.read d (.table origin es) = .ok a ↔
      s.readEntries es d = .ok a ∧ s.checkRequired es = .ok () := by
  rw [read_table]
  cases s.readEntries es d with
  | error m => simp [bind, Except.bind]
  | ok b =>
    cases s.checkRequired es with
    | error m => simp [bind, Except.bind]
    | ok u => simp [bind, Except.bind]

/-- A key can be left out of a section that has all it needs, unless it is needed itself. -/
theorem checkRequired_remove (h : s.checkRequired es = .ok ()) (key : String) :
    s.checkRequired (es.remove key) =
      if s.settings.any (fun f => f.required && f.key == key) then .error s!"missing field `{key}`"
      else .ok () := by
  have hthere : ∀ f ∈ s.settings, f.required = true → (es.get? f.key).isSome := by
    intro f hf hrequired
    rw [checkRequired] at h
    split at h
    case h_1 => cases h
    case h_2 hnone =>
      simpa [hrequired, Option.isSome_iff_ne_none] using List.find?_eq_none.1 hnone f hf
  rw [checkRequired]
  cases hfind : s.settings.find? fun f => f.required && ((es.remove key).get? f.key).isNone with
  | some f =>
    have hf := List.mem_of_find?_eq_some hfind
    have hgone := List.find?_some hfind
    rw [Bool.and_eq_true, Entries.get?_remove] at hgone
    have hkey : f.key = key := by
      by_contra hne
      rw [if_neg hne] at hgone
      have := hthere f hf hgone.1
      simp_all
    have hany : s.settings.any (fun f => f.required && f.key == key) = true :=
      List.any_eq_true.2 ⟨f, hf, by simp [hgone.1, hkey]⟩
    rw [if_pos hany, ← hkey]
  | none =>
    rw [if_neg]
    rw [List.any_eq_true]
    rintro ⟨f, hf, hkey⟩
    rw [Bool.and_eq_true, beq_iff_eq] at hkey
    have := List.find?_eq_none.1 hfind f hf
    simp [Entries.get?_remove, hkey] at this

/-- **A key left out of a section**: what it stands for is back at its default, unless the key has
to be there. -/
theorem read_remove (hφ : s.Resets key φ) (hd : φ d = d)
    (h : s.read d (.table origin es) = .ok a) :
    s.read d (.table origin (es.remove key)) =
      if s.settings.any (fun f => f.required && f.key == key) then .error s!"missing field `{key}`"
      else .ok (φ a) := by
  obtain ⟨hentries, hrequired⟩ := read_table_eq_ok_iff.1 h
  have hremove := readEntries_remove hφ hentries
  rw [hd] at hremove
  rw [read_table, hremove, ok_bind, checkRequired_remove hrequired]
  split
  · rfl
  · rfl

/-- A key left out of a section where none has to be there. -/
theorem read_remove_of_optional (hrequired : ∀ f ∈ s.settings, f.required = false)
    (hφ : s.Resets key φ) (hd : φ d = d) (h : s.read d (.table origin es) = .ok a) :
    s.read d (.table origin (es.remove key)) = .ok (φ a) := by
  rw [read_remove hφ hd h, if_neg]
  rw [List.any_eq_true]
  rintro ⟨f, hf, hneeded⟩
  simp [hrequired f hf] at hneeded

theorem checkRequired_eq_ok (hrequired : ∀ f ∈ s.settings, f.required = false) (es : Entries) :
    s.checkRequired es = .ok () := by
  have hnone : (s.settings.find? fun f => f.required && (es.get? f.key).isNone) = none := by
    rw [List.find?_eq_none]
    intro f hf
    simp [hrequired f hf]
  rw [checkRequired, hnone]

/-- **A section below another one**: if the one below is read in its new form as before, but for a
change, so is the one above; and if the one below cannot be read, neither can the one above. -/
theorem read_replace {β : Type} {below : Section β} {d' : β} {put : α → β → α} (ψ : β → β)
    {node node' : Node} {answer : Except String Unit} (hes : es.Distinct)
    (hget : es.get? key = some node) (hrequired : ∀ f ∈ s.settings, f.required = false)
    (hput : ∀ n a, s.put (key, n) a = below.read d' n >>= fun b => .ok (put a b))
    (hother : ∀ f ∈ s.settings, f.key ≠ key → f.Commutes φ)
    (hφ : ∀ a b, φ (put a b) = put (φ a) (ψ b)) (hd : φ d = d)
    (hbelow : ∀ b, below.read d' node = .ok b → below.read d' node' = answer.map fun _ => ψ b)
    (h : s.read d (.table origin es) = .ok a) :
    s.read d (.table origin (es.replace key node')) = answer.map fun _ => φ a := by
  obtain ⟨hentries, -⟩ := read_table_eq_ok_iff.1 h
  obtain ⟨b, hb⟩ : ∃ b, below.read d' node = .ok b := by
    obtain ⟨c, c', hc⟩ := exists_put_of_readEntries hentries (Entries.mem_of_get? hget)
    rw [hput] at hc
    cases hread : below.read d' node with
    | error m => rw [hread] at hc; cases hc
    | ok b => exact ⟨b, rfl⟩
  have hbelow := hbelow b hb
  cases answer with
  | error m =>
    have hbad : ∀ a, s.put (key, node') a = .error m := fun a => by rw [hput, hbelow]; rfl
    rw [read_table, readEntries_replace_error (by rw [hget]; rfl) hbad hentries]
    rfl
  | ok _ =>
    have hsame : ∀ {c c'}, s.put (key, node) c = .ok c' →
        s.put (key, node') (φ c) = .ok (φ c') := by
      intro c c' hc
      rw [hput, hb] at hc
      cases hc
      rw [hput, hbelow, hφ]
      rfl
    have hreplace := readEntries_replace hes hget hother hsame hentries
    rw [hd] at hreplace
    exact read_table_eq_ok_iff.2 ⟨hreplace, checkRequired_eq_ok hrequired _⟩

end Section

/-! ## The sections of settings -/

theorem identitySection_resets (key : String) :
    identitySection.Resets key (·.withDefault key) := by
  intro f hf
  simp only [identitySection, List.mem_cons, List.not_mem_nil, or_false] at hf
  rcases hf with rfl | rfl
  · exact Setting.Puts.resets
      ⟨fun n a => (rfl : _ = text n >>= fun b => .ok { a with name := b })⟩
      fun a b => by grind [Identity.withDefault]
  · exact Setting.Puts.resets
      ⟨fun n a => (rfl : _ = text n >>= fun b => .ok { a with profile := b })⟩
      fun a b => by grind [Identity.withDefault]

theorem loggingSection_resets (key : String) :
    loggingSection.Resets key (·.withDefault key) := by
  intro f hf
  simp only [loggingSection, List.mem_cons, List.not_mem_nil, or_false] at hf
  rcases hf with rfl | rfl
  · exact Setting.Puts.resets
      ⟨fun n a => (rfl : _ = text n >>= fun b => .ok { a with level := b })⟩
      fun a b => by grind [Logging.withDefault]
  · exact Setting.Puts.resets
      ⟨fun n a => (rfl : _ = logFormat n >>= fun b => .ok { a with format := b })⟩
      fun a b => by grind [Logging.withDefault]

theorem limitSection_resets (name own key : String) :
    (limitSection name own).Resets key (·.withDefault own key) := by
  intro f hf
  simp only [limitSection, List.mem_cons, List.not_mem_nil, or_false] at hf
  subst hf
  exact Setting.Puts.resets
    ⟨fun n a => (rfl : _ = natural n >>= fun b => .ok { a with seconds := b })⟩
    fun a b => by grind [Limit.withDefault]

theorem listenerSection_resets (d : Listener) (key : String) :
    listenerSection.Resets key (·.withDefault d key) := by
  intro f hf
  simp only [listenerSection, List.mem_cons, List.not_mem_nil, or_false] at hf
  rcases hf with rfl | rfl
  · exact Setting.Puts.resets
      ⟨fun n a => (rfl : _ = boolean n >>= fun b => .ok { a with enabled := b })⟩
      fun a b => by grind [Listener.withDefault]
  · exact Setting.Puts.resets
      ⟨fun n a => (rfl : _ = text n >>= fun b => .ok { a with address := b })⟩
      fun a b => by grind [Listener.withDefault]

/-- Of a place to listen, the address is what cannot be left out. -/
theorem listenerSection_read_remove (place : Place) {d a : Listener} (hd : d.enabled = true)
    {origin : Origin} {es : Entries} (key : String)
    (h : listenerSection.read noListener (.table origin es) = .ok a) :
    listenerSection.read noListener (.table origin (es.remove key)) =
      ((Part.endpoint place).leftOut key).map fun _ => a.withDefault d key := by
  have hnone : noListener.withDefault noListener key = noListener := by
    simp [Listener.withDefault]
  rw [Section.read_remove (listenerSection_resets noListener key) hnone h, Part.leftOut]
  by_cases hkey : key = "address"
  · rw [if_pos hkey, if_pos (by simp [listenerSection, hkey]), hkey]
    rfl
  · rw [if_neg hkey, if_neg (by simp [listenerSection, Ne.symm hkey])]
    simp [Listener.withDefault, hkey, hd, noListener, Except.map]

/-! ## Sections of sections -/

/-- The settings of the places to listen, and what they change. -/
theorem listenersSection_settings {f : Setting Listeners} (hf : f ∈ listenersSection.settings) :
    (f.key = "rest" ∧
        f.Puts (listenerSection.read noListener) fun a l => { a with rest := l }) ∨
      (f.key = "metrics" ∧
        f.Puts (listenerSection.read noListener) fun a l => { a with metrics := l }) ∨
      (f.key = "rpc" ∧
        f.Puts (listenerSection.read noListener) fun a l => { a with rpc := l }) := by
  simp only [listenersSection, List.mem_cons, List.not_mem_nil, or_false] at hf
  rcases hf with rfl | rfl | rfl
  · exact .inl ⟨rfl, ⟨fun _ _ => rfl⟩⟩
  · exact .inr (.inl ⟨rfl, ⟨fun _ _ => rfl⟩⟩)
  · exact .inr (.inr ⟨rfl, ⟨fun _ _ => rfl⟩⟩)

/-- The sections of a document, and what they change. -/
theorem documentSection_settings {f : Setting Config} (hf : f ∈ documentSection.settings) :
    (f.key = "app" ∧ f.Puts (identitySection.read {}) fun c i => { c with app := i }) ∨
      (f.key = "logging" ∧ f.Puts (loggingSection.read {}) fun c l => { c with logging := l }) ∨
      (f.key = "shutdown" ∧
        f.Puts ((limitSection "ShutdownConfig" "timeout_secs").read {})
          fun c l => { c with shutdown := l }) ∨
      (f.key = "http" ∧
        f.Puts ((limitSection "HttpConfig" "request_timeout_secs").read {})
          fun c l => { c with http := l }) ∨
      (f.key = "endpoints" ∧
        f.Puts (listenersSection.read {}) fun c l => { c with endpoints := l }) ∨
      (f.key = "components" ∧ f.Puts settings fun c t => { c with components := t }) := by
  simp only [documentSection, List.mem_cons, List.not_mem_nil, or_false] at hf
  rcases hf with rfl | rfl | rfl | rfl | rfl | rfl
  · exact .inl ⟨rfl, ⟨fun _ _ => rfl⟩⟩
  · exact .inr (.inl ⟨rfl, ⟨fun _ _ => rfl⟩⟩)
  · exact .inr (.inr (.inl ⟨rfl, ⟨fun _ _ => rfl⟩⟩))
  · exact .inr (.inr (.inr (.inl ⟨rfl, ⟨fun _ _ => rfl⟩⟩)))
  · exact .inr (.inr (.inr (.inr (.inl ⟨rfl, ⟨fun _ _ => rfl⟩⟩))))
  · exact .inr (.inr (.inr (.inr (.inr ⟨rfl, ⟨fun _ _ => rfl⟩⟩))))

theorem listenersSection_commutes (place : Place) (key : String) :
    ∀ f ∈ listenersSection.settings, f.key ≠ place.name →
      f.Commutes (listenersWithDefault · place key) := by
  intro f hf hkey
  -- Where the setting is not the one of the place itself, the two changes are of different fields.
  rcases listenersSection_settings hf with ⟨hf, h⟩ | ⟨hf, h⟩ | ⟨hf, h⟩
  all_goals
    cases place
    all_goals
      first
      | exact absurd hf hkey
      | exact h.commutes fun _ _ => rfl

theorem documentSection_commutes (part : Part) (key : String) {name : String}
    {path : List String} (hpath : part.path = name :: path) :
    ∀ f ∈ documentSection.settings, f.key ≠ name → f.Commutes (·.withDefault part key) := by
  intro f hf hkey
  rcases documentSection_settings hf with ⟨hf, h⟩ | ⟨hf, h⟩ | ⟨hf, h⟩ | ⟨hf, h⟩ | ⟨hf, h⟩ | ⟨hf, h⟩
  all_goals
    cases part
    all_goals
      cases hpath
      first
      | exact absurd hf hkey
      | exact h.commutes fun _ _ => rfl

theorem listenersSection_read_replace {es sub : Entries} {origin origin' : Origin} {a : Listeners}
    (hes : es.Distinct) (place : Place) (hget : es.get? place.name = some (.table origin sub))
    (key : String) (h : listenersSection.read {} (.table origin' es) = .ok a) :
    listenersSection.read {}
        (.table origin' (es.replace place.name (.table origin (sub.remove key)))) =
      ((Part.endpoint place).leftOut key).map fun _ => listenersWithDefault a place key := by
  have hdefault : listenersWithDefault {} place key = {} := by
    cases place <;> simp [listenersWithDefault, Listener.withDefault]
  have hrequired : ∀ f ∈ listenersSection.settings, f.required = false := by
    simp [listenersSection]
  have hother := listenersSection_commutes place key
  cases place with
  | rest =>
    exact Section.read_replace (·.withDefault ({} : Listeners).rest key) hes hget hrequired
      (fun _ _ => rfl) hother (fun _ _ => rfl) hdefault
      (fun _ hb => listenerSection_read_remove .rest rfl key hb) h
  | metrics =>
    exact Section.read_replace (·.withDefault ({} : Listeners).metrics key) hes hget hrequired
      (fun _ _ => rfl) hother (fun _ _ => rfl) hdefault
      (fun _ hb => listenerSection_read_remove .metrics rfl key hb) h
  | rpc =>
    exact Section.read_replace (·.withDefault ({} : Listeners).rpc key) hes hget hrequired
      (fun _ _ => rfl) hother (fun _ _ => rfl) hdefault
      (fun _ hb => listenerSection_read_remove .rpc rfl key hb) h

/-- **A document without a key of one of its sections.** The settings are as they were, with the
default in place of what the key stood for; but the address of a place to listen has none, and
without it the document cannot be read. -/
theorem ofEntries_without {content : String} {es sub : Entries} {c : Config}
    (hdoc : Entries.ofText? content = some es) (hread : ofEntries es = .ok c) (part : Part)
    (hsub : es.sectionAt? part.path = some sub) (key : String) :
    ofEntries (es.without key part.path) =
      (part.leftOut key).map fun _ => c.withDefault part key := by
  have hes := Entries.distinct_ofText? hdoc
  have hdefault : ({} : Config).withDefault part key = {} := by
    cases part with
    | endpoint place =>
      cases place <;> simp [withDefault, listenersWithDefault, Listener.withDefault]
    | _ => simp [withDefault, Identity.withDefault, Logging.withDefault, Limit.withDefault]
  have hrequired : ∀ f ∈ documentSection.settings, f.required = false := by
    simp [documentSection]
  obtain ⟨name, path, hpath⟩ : ∃ name path, part.path = name :: path := by
    cases part <;> exact ⟨_, _, rfl⟩
  have hother := documentSection_commutes part key hpath
  rw [hpath] at hsub ⊢
  obtain ⟨origin, below, hget, hbelow⟩ := Entries.sectionAt?_cons hsub
  rw [Entries.without_cons hget]
  cases part with
  | app =>
    cases hpath
    refine Section.read_replace (·.withDefault key) hes hget hrequired (fun _ _ => rfl) hother
      (fun _ _ => rfl) hdefault (fun a ha => ?_) hread
    exact Section.read_remove_of_optional (by simp [identitySection]) (identitySection_resets key)
      (by simp [Identity.withDefault]) ha
  | logging =>
    cases hpath
    refine Section.read_replace (·.withDefault key) hes hget hrequired (fun _ _ => rfl) hother
      (fun _ _ => rfl) hdefault (fun a ha => ?_) hread
    exact Section.read_remove_of_optional (by simp [loggingSection]) (loggingSection_resets key)
      (by simp [Logging.withDefault]) ha
  | shutdown =>
    cases hpath
    refine Section.read_replace (·.withDefault "timeout_secs" key) hes hget hrequired
      (fun _ _ => rfl) hother (fun _ _ => rfl) hdefault (fun a ha => ?_) hread
    exact Section.read_remove_of_optional (by simp [limitSection]) (limitSection_resets _ _ key)
      (by simp [Limit.withDefault]) ha
  | http =>
    cases hpath
    refine Section.read_replace (·.withDefault "request_timeout_secs" key) hes hget hrequired
      (fun _ _ => rfl) hother (fun _ _ => rfl) hdefault (fun a ha => ?_) hread
    exact Section.read_remove_of_optional (by simp [limitSection]) (limitSection_resets _ _ key)
      (by simp [Limit.withDefault]) ha
  | endpoint place =>
    cases hpath
    obtain ⟨origin', below', hplace, -⟩ := Entries.sectionAt?_cons hbelow
    refine Section.read_replace (listenersWithDefault · place key) hes hget hrequired
      (fun _ _ => rfl) hother (fun _ _ => rfl) hdefault (fun a ha => ?_) hread
    rw [Entries.without_cons hplace]
    exact listenersSection_read_replace (hes.get hget).entries place hplace key ha

/-- A place to listen that is not in use, without the key that switches it off. -/
theorem ofEntries_without_enabled :
    let address : String × Node := ("address", .scalar (.text "[::]:81"))
    let document (sub : Entries) : Entries :=
      [("endpoints", .table .implied [("metrics", .table .header sub)])]
    let before := document [("enabled", .scalar (.boolean false)), address]
    Entries.ofText? "[endpoints.metrics]\nenabled = false\naddress = '[::]:81'\n" = some before ∧
      before.without "enabled" (Part.endpoint .metrics).path = document [address] ∧
      ofEntries (document [address]) =
        .ok { endpoints := { metrics := { enabled := true, address := "[::]:81" } } } := by
  intro address document before
  have hdoc : Entries.ofText? "[endpoints.metrics]\nenabled = false\naddress = '[::]:81'\n" =
      some before := rfl
  refine ⟨hdoc, rfl, ?_⟩
  exact ofEntries_without hdoc rfl (.endpoint .metrics) rfl "enabled"

/-- Not every setting has a default: where a document has the address of a place to listen, it
cannot be read without that. -/
theorem not_always_ofEntries_without :
    ¬ ∀ (content : String) (es sub : Entries) (c : Config) (part : Part) (key : String),
      Entries.ofText? content = some es → ofEntries es = .ok c →
        es.sectionAt? part.path = some sub → (sub.get? key).isSome →
          ofEntries (es.without key part.path) = .ok (c.withDefault part key) := by
  intro h
  let sub : Entries :=
    [("enabled", .scalar (.boolean false)), ("address", .scalar (.text "0.0.0.0:8081"))]
  let es : Entries := [("endpoints", .table .implied [("metrics", .table .header sub)])]
  have hdoc : Entries.ofText?
      "[endpoints.metrics]\nenabled = false\naddress = \"0.0.0.0:8081\"\n" = some es := rfl
  have herror : ofEntries (es.without "address" (Part.endpoint .metrics).path) =
      .error "missing field `address`" := rfl
  have := h _ es sub _ (.endpoint .metrics) "address" hdoc rfl rfl rfl
  rw [herror] at this
  cases this

end Config

end Chassis
