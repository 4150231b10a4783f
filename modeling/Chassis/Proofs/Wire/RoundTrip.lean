import Chassis.Proofs.Table
import Chassis.Proofs.Wire.Numbers

/-!
# Messages on the RPC wire are read back

> **a message is read back from its bytes, whatever the order of the entries of its tables**
> (`Message.readAll_write`).

The bytes of a message are the bytes of its `Occurrence`s, one after another, and the reader takes
them one after another onto a state. `FieldsRead` follows it and says which state each occurrence
leaves. That is where one induction over the descriptions of messages suffices: a field's own
occurrences fill the field, and the rest of the message does not see them.

Two things a message has to bring along. Its fields must be numbered apart (`Message.numbered`), and
its parts must be short enough for their lengths to be written in ten groups; the second follows for
all parts from the length of the whole.
-/

set_option autoImplicit false

namespace Chassis.Wire

open Text.Utf8

/-! ## Occurrences -/

/-- A field on the wire. -/
structure Occurrence where
  tag : Nat
  wireType : WireType
  contents : List UInt8

namespace Occurrence

def bytes (o : Occurrence) : List UInt8 := writeKey o.tag o.wireType.number ++ o.contents

def delimited (tag : Nat) (contents : List UInt8) : Occurrence :=
  ⟨tag, .lengthDelimited, prefixed contents⟩

theorem bytes_delimited (tag : Nat) (contents : List UInt8) :
    (delimited tag contents).bytes = writeDelimited tag contents := by
  rw [bytes, delimited, prefixed, ← List.append_assoc]
  rfl

theorem bytes_ne_nil (o : Occurrence) : o.bytes ≠ [] := by
  intro h
  have hkey : writeKey o.tag o.wireType.number = [] := (List.append_eq_nil_iff.1 h).1
  rw [writeKey, writeVarint, varintLoop] at hkey
  split at hkey <;> cases hkey

end Occurrence

section

variable {σ : Type} {read : Nat → WireType → σ → List UInt8 → Except Fault (σ × List UInt8)}

/-- Reading these fields, one after another, leads from one state to another. -/
inductive FieldsRead (read : Nat → WireType → σ → List UInt8 → Except Fault (σ × List UInt8)) :
    List Occurrence → σ → σ → Prop
  | nil (s : σ) : FieldsRead read [] s s
  | cons {o : Occurrence} {os : List Occurrence} {s s' s'' : σ}
      (head : ∀ tail, read o.tag o.wireType s (o.contents ++ tail) = .ok (s', tail))
      (rest : FieldsRead read os s' s'') : FieldsRead read (o :: os) s s''

theorem FieldsRead.append {os os' : List Occurrence} {s s' s'' : σ} (h : FieldsRead read os s s')
    (h' : FieldsRead read os' s' s'') : FieldsRead read (os ++ os') s s'' := by
  induction h with
  | nil _ => exact h'
  | cons head _ ih => exact .cons head (ih h')

/-- Fields that each do one step to the state, do all the steps. -/
theorem FieldsRead.of_steps {α : Type} {tag : Nat} (contents : α → List UInt8) (step : σ → α → σ) :
    ∀ (xs : List α) (s : σ), (∀ x ∈ xs, ∀ s tail,
      read tag .lengthDelimited s (prefixed (contents x) ++ tail) = .ok (step s x, tail)) →
    FieldsRead read (xs.map fun x => .delimited tag (contents x)) s (xs.foldl step s)
  | [], s, _ => .nil s
  | x :: xs, s, h => by
    have ih := FieldsRead.of_steps contents step xs (step s x) fun y hy =>
      h y (List.mem_cons_of_mem x hy)
    exact .cons (h x List.mem_cons_self s) ih

/-- A reader that does as another one to a part of its state does so to the part as a whole. -/
theorem FieldsRead.lift {τ : Type}
    {read' : Nat → WireType → τ → List UInt8 → Except Fault (τ × List UInt8)} (part : σ → τ)
    {os : List Occurrence} {s s' : σ} (h : FieldsRead read os s s')
    (hpart : ∀ o ∈ os, ∀ {s s' bs bs'}, read o.tag o.wireType s bs = .ok (s', bs') →
      read' o.tag o.wireType (part s) bs = .ok (part s', bs')) :
    FieldsRead read' os (part s) (part s') := by
  induction h with
  | nil s => exact .nil (part s)
  | @cons o os s₁ s₂ s₃ head _ ih =>
    refine .cons (fun tail => hpart o List.mem_cons_self (head tail)) ?_
    exact ih fun o' h' => hpart o' (List.mem_cons_of_mem o h')

/-- **The bytes of fields are read** up to the last one. -/
theorem readFields_bytes {os : List Occurrence} {s s' : σ} (h : FieldsRead read os s s') :
    ∀ (fuel : Nat), (∀ o ∈ os, IsTag o.tag) → (os.flatMap Occurrence.bytes).length ≤ fuel →
    readFields read fuel s (os.flatMap Occurrence.bytes) = .ok s' := by
  induction h with
  | nil s =>
    intro fuel _ _
    simp only [List.flatMap_nil, readFields]
  | @cons o os s₁ s₂ s₃ head _ ih =>
    intro fuel htags hfuel
    rw [List.flatMap_cons] at hfuel ⊢
    have hne : o.bytes ++ os.flatMap Occurrence.bytes ≠ [] := by
      intro h
      exact o.bytes_ne_nil (List.append_eq_nil_iff.1 h).1
    -- Each field takes a byte at least, so the fuel outlasts the fields.
    have hlen : 0 < o.bytes.length := List.length_pos_iff.2 o.bytes_ne_nil
    rw [List.length_append] at hfuel
    obtain ⟨fuel, rfl⟩ : ∃ n, fuel = n + 1 := ⟨fuel - 1, by omega⟩
    rw [readFields]
    · rw [Occurrence.bytes, List.append_assoc, readKey_writeKey (htags o List.mem_cons_self),
        ok_bind]
      simp only [head, ok_bind]
      exact ih fuel (fun o' h' => htags o' (List.mem_cons_of_mem o h')) (by omega)
    · exact hne

end

/-! ## Descriptions -/

def Message.tags : Message → List Nat
  | .nil => []
  | .cons tag _ _ rest => tag :: rest.tags

mutual

/-- The messages in a field have their fields numbered apart. -/
def Field.numbered : Field → Bool
  | .messages _ item => item.numbered
  | _ => true

/-- Each field of the message has a number of its own. -/
def Message.numbered : Message → Bool
  | .nil => true
  | .cons tag _ field rest =>
    decide (0 < tag ∧ tag < 0x20000000) && !rest.tags.contains tag && field.numbered &&
      rest.numbered

end

mutual

def Field.depth : Field → Nat
  | .table => 1
  | .messages _ item => item.depth + 1
  | _ => 0

/-- How many messages are inside one another in the fields of a message. -/
def Message.depth : Message → Nat
  | .nil => 0
  | .cons _ _ field rest => max field.depth rest.depth

end

mutual

def Field.IntegersFit : (f : Field) → f.Value → Prop
  | .integer => fun (v : Int) => -0x80000000 ≤ v ∧ v < 0x80000000
  | .messages _ item => fun (v : List item.Value) => ∀ x ∈ v, item.IntegersFit x
  | .text => fun _ => True
  | .bytes => fun _ => True
  | .texts => fun _ => True
  | .table => fun _ => True

/-- The integers in a message fit 32 bits. -/
def Message.IntegersFit : (m : Message) → m.Value → Prop
  | .nil => fun _ => True
  | .cons _ _ field rest => fun (v : field.Value × rest.Value) =>
    field.IntegersFit v.1 ∧ rest.IntegersFit v.2

end

/-! ## What is on the wire -/

def Field.occurrences (order : EntryOrder) : (f : Field) → (tag : Nat) → f.Value → List Occurrence
  | .text, tag => fun (v : String) => if v = "" then [] else [.delimited tag (encode v)]
  | .bytes, tag => fun (v : List UInt8) => if v.isEmpty then [] else [.delimited tag v]
  | .integer, tag => fun (v : Int) =>
    if v = 0 then [] else [⟨tag, .varint, writeVarint (unsigned64 v)⟩]
  | .texts, tag => fun (v : List String) => v.map fun s => .delimited tag (encode s)
  | .table, tag => fun (v : Table) =>
    (order.entries v).map fun e => .delimited tag (writeNonEmpty 1 e.1 ++ writeNonEmpty 2 e.2)
  | .messages _ item, tag => fun (v : List item.Value) =>
    v.map fun x => .delimited tag (item.write order x)

/-- The occurrences of the fields of a message. -/
def Message.occurrences (order : EntryOrder) : (m : Message) → m.Value → List Occurrence
  | .nil => fun _ => []
  | .cons tag _ field rest => fun (v : field.Value × rest.Value) =>
    field.occurrences order tag v.1 ++ rest.occurrences order v.2

theorem flatMap_bytes_delimited {α : Type} (tag : Nat) (contents : α → List UInt8) (xs : List α) :
    (xs.map fun x => Occurrence.delimited tag (contents x)).flatMap Occurrence.bytes =
      xs.flatMap fun x => writeDelimited tag (contents x) := by
  rw [List.flatMap_map]
  simp only [Occurrence.bytes_delimited]

theorem Field.flatMap_occurrences (f : Field) (order : EntryOrder) (tag : Nat) (v : f.Value) :
    (f.occurrences order tag v).flatMap Occurrence.bytes = f.write order tag v := by
  cases f with
  | text =>
    have key : ∀ s : String, (Field.text.occurrences order tag s).flatMap Occurrence.bytes =
        Field.text.write order tag s := by
      intro s
      by_cases hs : s = ""
      · simp only [Field.occurrences, Field.write, writeNonEmpty, if_pos hs, List.flatMap_nil]
      · simp only [Field.occurrences, Field.write, writeNonEmpty, if_neg hs,
          List.flatMap_singleton, Occurrence.bytes_delimited]
    exact key v
  | bytes =>
    have key : ∀ bs : List UInt8, (Field.bytes.occurrences order tag bs).flatMap Occurrence.bytes =
        Field.bytes.write order tag bs := by
      intro bs
      by_cases hbs : bs.isEmpty = true
      · simp only [Field.occurrences, Field.write, if_pos hbs, List.flatMap_nil]
      · simp only [Field.occurrences, Field.write, if_neg hbs, List.flatMap_singleton,
          Occurrence.bytes_delimited]
    exact key v
  | integer =>
    have key : ∀ n : Int, (Field.integer.occurrences order tag n).flatMap Occurrence.bytes =
        Field.integer.write order tag n := by
      intro n
      by_cases hn : n = 0
      · simp only [Field.occurrences, Field.write, if_pos hn, List.flatMap_nil]
      · simp only [Field.occurrences, Field.write, if_neg hn, List.flatMap_singleton]
        rfl
    exact key v
  | texts => exact flatMap_bytes_delimited tag encode v
  | table =>
    have hentry : writeEntry tag =
        fun e => writeDelimited tag (writeNonEmpty 1 e.1 ++ writeNonEmpty 2 e.2) := rfl
    have key : ∀ t : Table, (Field.table.occurrences order tag t).flatMap Occurrence.bytes =
        Field.table.write order tag t := by
      intro t
      simp only [Field.occurrences, Field.write, flatMap_bytes_delimited, hentry]
    exact key v
  | messages name item => exact flatMap_bytes_delimited tag (item.write order) v

theorem Message.flatMap_occurrences (order : EntryOrder) : ∀ (m : Message) (v : m.Value),
    (m.occurrences order v).flatMap Occurrence.bytes = m.write order v
  | .nil, _ => rfl
  | .cons tag _ field rest, (v, vs) => by
    have ih := Message.flatMap_occurrences order rest vs
    simp only [Message.occurrences, Message.write, List.flatMap_append, Field.flatMap_occurrences,
      ih]

/-! ## Numbers of fields -/

theorem Field.tag_of_mem_occurrences {order : EntryOrder} {f : Field} {tag : Nat} {v : f.Value}
    {o : Occurrence} (h : o ∈ f.occurrences order tag v) : o.tag = tag := by
  cases f with
  | text =>
    simp only [Field.occurrences] at h
    split at h
    · cases h
    · rw [List.mem_singleton.1 h]
      rfl
  | bytes =>
    simp only [Field.occurrences] at h
    split at h
    · cases h
    · rw [List.mem_singleton.1 h]
      rfl
  | integer =>
    simp only [Field.occurrences] at h
    split at h
    · cases h
    · rw [List.mem_singleton.1 h]
  | texts | table | messages =>
    obtain ⟨x, -, rfl⟩ := List.mem_map.1 h
    rfl

theorem Message.tag_mem_of_mem_occurrences {order : EntryOrder} : ∀ {m : Message} {v : m.Value}
    {o : Occurrence}, o ∈ m.occurrences order v → o.tag ∈ m.tags
  | .nil, _, _, h => absurd h List.not_mem_nil
  | .cons tag _ field rest, (v, vs), o, h => by
    rcases List.mem_append.1 h with h | h
    · rw [Field.tag_of_mem_occurrences h]
      exact List.mem_cons_self
    · exact List.mem_cons_of_mem _ (Message.tag_mem_of_mem_occurrences h)

theorem Message.numbered_cons {tag : Nat} {label : String} {field : Field} {rest : Message}
    (h : (Message.cons tag label field rest).numbered = true) :
    IsTag tag ∧ tag ∉ rest.tags ∧ field.numbered = true ∧ rest.numbered = true := by
  have h : (((0 < tag ∧ tag < 0x20000000) ∧ tag ∉ rest.tags) ∧ field.numbered = true) ∧
      rest.numbered = true := by
    simpa [Message.numbered] using h
  exact ⟨h.1.1.1, h.1.1.2, h.1.2, h.2⟩

theorem Message.isTag_of_mem_tags : ∀ {m : Message}, m.numbered = true →
    ∀ {tag : Nat}, tag ∈ m.tags → IsTag tag
  | .nil, _, _, h => absurd h List.not_mem_nil
  | .cons number _ field rest, hm, tag, h => by
    obtain ⟨hnumber, -, -, hrest⟩ := Message.numbered_cons hm
    rcases List.mem_cons.1 h with rfl | h
    · exact hnumber
    · exact Message.isTag_of_mem_tags hrest h

/-! ## Reading one message -/

/-- Reads a field of a message, or one that nobody asked for. -/
def Message.take (m : Message) (name : String) (depth tag : Nat) (wireType : WireType)
    (state : m.Value) (bs : List UInt8) : Except Fault (m.Value × List UInt8) :=
  match m.readField name depth tag wireType state bs with
  | some r => r
  | none => do .ok (state, ← skipField depth tag wireType bs)

section

variable {name label : String} {depth number : Nat} {field : Field} {rest : Message}

/-- The occurrences of the first field are read as that field. -/
theorem FieldsRead.first {os : List Occurrence} {x x' : field.Value} (y : rest.Value)
    (h : FieldsRead (fun _ => field.read depth) os x x') (htags : ∀ o ∈ os, o.tag = number) :
    FieldsRead ((Message.cons number label field rest).take name depth) os (x, y) (x', y) := by
  refine h.lift (fun x => (x, y)) ?_
  intro o ho x₁ x₂ bs bs' hread
  simp only [Message.take, Message.readField, if_pos (htags o ho), hread]
  rfl

/-- The occurrences of later fields are read as if the first one were not there. -/
theorem FieldsRead.later {os : List Occurrence} {y y' : rest.Value} (x : field.Value)
    (h : FieldsRead (rest.take name depth) os y y') (htags : ∀ o ∈ os, o.tag ≠ number) :
    FieldsRead ((Message.cons number label field rest).take name depth) os (x, y) (x, y') := by
  refine h.lift (fun y => (x, y)) ?_
  intro o ho y₁ y₂ bs bs' hread
  simp only [Message.take, Message.readField, if_neg (htags o ho)] at hread ⊢
  -- Known to a later field or to none: in both cases the state of the first field is handed on.
  cases hfield : rest.readField name depth o.tag o.wireType y₁ bs with
  | some r =>
    rw [hfield] at hread
    have hread : r = .ok (y₂, bs') := hread
    rw [hread]
    rfl
  | none =>
    rw [hfield] at hread
    simp only [Option.map_none] at hread ⊢
    cases hskip : skipField depth o.tag o.wireType bs with
    | error fault =>
      rw [hskip] at hread
      cases hread
    | ok skipped =>
      rw [hskip, ok_bind] at hread
      obtain ⟨rfl, rfl⟩ := Prod.mk.inj (Except.ok.inj hread)
      rfl

end

/-- Bytes whose fields lead from the blank message to another are read as that one. -/
theorem Message.readFields_write {order : EntryOrder} {m : Message} {name : String} {depth : Nat}
    {v : m.Value} (hm : m.numbered = true)
    (h : FieldsRead (m.take name depth) (m.occurrences order v) m.blank v) :
    readFields (m.take name depth) (m.write order v).length m.blank (m.write order v) = .ok v := by
  rw [← m.flatMap_occurrences order v]
  exact readFields_bytes h _
    (fun o ho => isTag_of_mem_tags hm (tag_mem_of_mem_occurrences ho)) (Nat.le_refl _)

/-! ## Reading each field -/

/-- Contents that are on the wire are no longer than all the bytes. -/
theorem length_contents_le {tag : Nat} {contents : List UInt8} {os : List Occurrence}
    (h : Occurrence.delimited tag contents ∈ os) :
    contents.length ≤ (os.flatMap Occurrence.bytes).length := by
  have hbytes : (Occurrence.delimited tag contents).bytes.length ≤
      (os.flatMap Occurrence.bytes).length :=
    (List.sublist_flatten_of_mem (List.mem_map_of_mem h)).length_le
  rw [Occurrence.bytes_delimited, writeDelimited, List.length_append] at hbytes
  omega

/-- The parts of a short field are short. -/
theorem Field.length_contents_lt {order : EntryOrder} {f : Field} {tag : Nat} {v : f.Value}
    (h : (f.write order tag v).length < 0x10000000000000000) (contents : List UInt8)
    (hmem : Occurrence.delimited tag contents ∈ f.occurrences order tag v) :
    contents.length < 0x10000000000000000 := by
  have hle := length_contents_le hmem
  rw [f.flatMap_occurrences order tag v] at hle
  omega

theorem Message.length_contents_le {order : EntryOrder} {m : Message} {v : m.Value} {tag : Nat}
    {contents : List UInt8} (h : Occurrence.delimited tag contents ∈ m.occurrences order v) :
    contents.length ≤ (m.write order v).length := by
  rw [← m.flatMap_occurrences order v]
  exact Wire.length_contents_le h

/-- An integer of 32 bits comes back from its 64 bits. -/
theorem signed32_unsigned64 {n : Int} (hl : -0x80000000 ≤ n) (hh : n < 0x80000000) :
    signed32 (unsigned64 n) = n := by
  have hcast : (unsigned64 n : Int) = n % 0x10000000000000000 :=
    Int.toNat_of_nonneg (Int.emod_nonneg n (by decide))
  have hlow : n % 0x10000000000000000 % ((0x100000000 : Nat) : Int) = n % (0x100000000 : Nat) :=
    Int.emod_emod_of_dvd n ⟨0x100000000, by decide⟩
  calc signed32 (unsigned64 n)
    _ = Int.bmod (n % 0x10000000000000000) 0x100000000 := congrArg (Int.bmod · _) hcast
    _ = Int.bmod (n % 0x10000000000000000 % (0x100000000 : Nat)) 0x100000000 :=
      (Int.emod_bmod _ _).symm
    _ = Int.bmod (n % (0x100000000 : Nat)) 0x100000000 := congrArg (Int.bmod · _) hlow
    _ = Int.bmod n 0x100000000 := Int.emod_bmod n _
    _ = n := Int.bmod_eq_of_le_mul_two (by omega) (by omega)

theorem unsigned64_lt (n : Int) : unsigned64 n < 0x10000000000000000 := by
  simp only [unsigned64]
  omega

section

variable {order : EntryOrder} {tag depth : Nat}

theorem fieldsRead_text {s : String}
    (h : (Field.text.write order tag s).length < 0x10000000000000000) :
    FieldsRead (fun _ => Field.text.read depth) (Field.text.occurrences order tag s) "" s := by
  have hlen := Field.length_contents_lt h
  by_cases hs : s = ""
  · subst hs
    exact .nil ""
  · simp only [Field.occurrences, if_neg hs] at hlen ⊢
    refine .cons (fun tail => ?_) (.nil s)
    exact readText_prefixed (hlen _ List.mem_cons_self) tail

theorem fieldsRead_bytes {bs : List UInt8}
    (h : (Field.bytes.write order tag bs).length < 0x10000000000000000) :
    FieldsRead (fun _ => Field.bytes.read depth) (Field.bytes.occurrences order tag bs) [] bs := by
  have hlen := Field.length_contents_lt h
  cases bs with
  | nil => exact .nil []
  | cons b bs =>
    refine .cons (fun tail => ?_) (.nil (b :: bs))
    exact readDelimited_prefixed (hlen _ List.mem_cons_self) tail

theorem fieldsRead_integer {n : Int} (hn : -0x80000000 ≤ n ∧ n < 0x80000000) :
    FieldsRead (fun _ => Field.integer.read depth) (Field.integer.occurrences order tag n)
      (0 : Int) n := by
  by_cases h : n = 0
  · subst h
    exact .nil (0 : Int)
  · simp only [Field.occurrences, if_neg h]
    refine .cons (fun tail => ?_) (.nil n)
    simp only [Field.read, expect, ↓reduceIte, readVarint_writeVarint (unsigned64_lt n), ok_bind,
      signed32_unsigned64 hn.1 hn.2]

/-- What is put behind a list one by one is put behind it as a whole. -/
theorem foldl_concat {α : Type} (xs acc : List α) :
    xs.foldl (fun acc x => acc ++ [x]) acc = acc ++ xs := by
  induction xs generalizing acc with
  | nil => exact (List.append_nil acc).symm
  | cons x xs ih => rw [List.foldl_cons, ih, List.append_assoc, List.singleton_append]

/-- Fields that each put one element behind a list, make up the list. -/
theorem FieldsRead.of_elements {α : Type}
    {read : Nat → WireType → List α → List UInt8 → Except Fault (List α × List UInt8)}
    (contents : α → List UInt8) {xs : List α} (h : ∀ x ∈ xs, ∀ acc tail,
      read tag .lengthDelimited acc (prefixed (contents x) ++ tail) = .ok (acc ++ [x], tail)) :
    FieldsRead read (xs.map fun x => .delimited tag (contents x)) [] xs := by
  have hread := of_steps contents (fun acc x => acc ++ [x]) xs [] h
  rwa [foldl_concat, List.nil_append] at hread

theorem fieldsRead_texts {ss : List String}
    (h : (Field.texts.write order tag ss).length < 0x10000000000000000) :
    FieldsRead (fun _ => Field.texts.read depth) (Field.texts.occurrences order tag ss) [] ss := by
  have hlen := Field.length_contents_lt h
  have hread : ∀ s ∈ ss, ∀ (acc : List String) tail,
      Field.texts.read depth .lengthDelimited acc (prefixed (encode s) ++ tail) =
        .ok (acc ++ [s], tail) := by
    intro s hs acc tail
    have hs : (encode s).length < 0x10000000000000000 :=
      hlen _ (List.mem_map.2 ⟨s, hs, rfl⟩)
    simp only [Field.read, readText_prefixed hs, ok_bind]
  exact .of_elements encode hread

/-- The key and the value of an entry are read back. -/
theorem readEntry_write {e : String × String} (inner : Nat)
    (h : (writeNonEmpty 1 e.1 ++ writeNonEmpty 2 e.2).length < 0x10000000000000000) :
    readFields (readEntryField inner) (writeNonEmpty 1 e.1 ++ writeNonEmpty 2 e.2).length ("", "")
      (writeNonEmpty 1 e.1 ++ writeNonEmpty 2 e.2) = .ok e := by
  obtain ⟨key, value⟩ := e
  rw [List.length_append] at h
  -- An entry is written like a message of two texts, so it is read by the same steps.
  let keys := Field.text.occurrences .ascending 1 key
  let values := Field.text.occurrences .ascending 2 value
  have hkey : FieldsRead (fun _ => Field.text.read inner) keys "" key :=
    fieldsRead_text (Nat.lt_of_le_of_lt (Nat.le_add_right _ _) h)
  have hvalue : FieldsRead (fun _ => Field.text.read inner) values "" value :=
    fieldsRead_text (Nat.lt_of_le_of_lt (Nat.le_add_left _ _) h)
  have hkey : FieldsRead (readEntryField inner) keys ("", "") (key, "") := by
    refine hkey.lift (fun s => (s, "")) fun o ho s s' bs bs' hread => ?_
    have hread : readText o.wireType bs = .ok (s', bs') := hread
    simp only [Field.tag_of_mem_occurrences ho, readEntryField, hread, ok_bind]
    rfl
  have hvalue : FieldsRead (readEntryField inner) values (key, "") (key, value) := by
    refine hvalue.lift (fun s => (key, s)) fun o ho s s' bs bs' hread => ?_
    have hread : readText o.wireType bs = .ok (s', bs') := hread
    simp only [Field.tag_of_mem_occurrences ho, readEntryField, hread, ok_bind]
    rfl
  have hbytes : (keys ++ values).flatMap Occurrence.bytes =
      writeNonEmpty 1 key ++ writeNonEmpty 2 value := by
    have hkeys : keys.flatMap Occurrence.bytes = writeNonEmpty 1 key :=
      Field.text.flatMap_occurrences .ascending 1 key
    have hvalues : values.flatMap Occurrence.bytes = writeNonEmpty 2 value :=
      Field.text.flatMap_occurrences .ascending 2 value
    rw [List.flatMap_append, hkeys, hvalues]
  rw [← hbytes]
  refine readFields_bytes (hkey.append hvalue) _ ?_ (Nat.le_refl _)
  intro o ho
  rcases List.mem_append.1 ho with ho | ho
  · rw [Field.tag_of_mem_occurrences ho]
    exact ⟨by decide, by decide⟩
  · rw [Field.tag_of_mem_occurrences ho]
    exact ⟨by decide, by decide⟩

theorem fieldsRead_table {t : Table} (hd : 0 < depth)
    (h : (Field.table.write order tag t).length < 0x10000000000000000) :
    FieldsRead (fun _ => Field.table.read depth) (Field.table.occurrences order tag t)
      Table.empty t := by
  obtain ⟨inner, rfl⟩ : ∃ n, depth = n + 1 := ⟨depth - 1, by omega⟩
  have hlen := Field.length_contents_lt h
  have hread : ∀ e ∈ order.entries t, ∀ (acc : Table) tail,
      Field.table.read (inner + 1) .lengthDelimited acc
          (prefixed (writeNonEmpty 1 e.1 ++ writeNonEmpty 2 e.2) ++ tail) =
        .ok (acc.insert e.1 e.2, tail) := by
    intro e he acc tail
    have he : (writeNonEmpty 1 e.1 ++ writeNonEmpty 2 e.2).length < 0x10000000000000000 :=
      hlen _ (List.mem_map.2 ⟨e, he, rfl⟩)
    simp only [Field.read, deeper, readDelimited_prefixed he, ok_bind, readEntry_write inner he]
  have hall : (order.entries t).foldl (fun t e => t.insert e.1 e.2) Table.empty = t :=
    Table.ofList_eq_of_perm (order.perm t)
  have hsteps : FieldsRead
      (fun _ wireType (acc : Table) => Field.table.read (inner + 1) wireType acc)
      (Field.table.occurrences order tag t) Table.empty
      ((order.entries t).foldl (fun t e => t.insert e.1 e.2) Table.empty) :=
    .of_steps _ _ _ _ hread
  rwa [hall] at hsteps

theorem fieldsRead_messages {name : String} {item : Message} {xs : List item.Value}
    (hd : (Field.messages name item).depth ≤ depth) (hi : item.numbered = true)
    (h : ((Field.messages name item).write order tag xs).length < 0x10000000000000000)
    (hitem : ∀ x ∈ xs, ∀ inner, item.depth ≤ inner →
      (item.write order x).length < 0x10000000000000000 →
      FieldsRead (item.take name inner) (item.occurrences order x) item.blank x) :
    FieldsRead (fun _ => (Field.messages name item).read depth)
      ((Field.messages name item).occurrences order tag xs) [] xs := by
  have hd : item.depth + 1 ≤ depth := hd
  obtain ⟨inner, rfl⟩ : ∃ n, depth = n + 1 := ⟨depth - 1, by omega⟩
  have hlen := Field.length_contents_lt h
  have hread : ∀ x ∈ xs, ∀ (acc : List item.Value) tail,
      (Field.messages name item).read (inner + 1) .lengthDelimited acc
          (prefixed (item.write order x) ++ tail) = .ok (acc ++ [x], tail) := by
    intro x hx acc tail
    have hx' : (item.write order x).length < 0x10000000000000000 :=
      hlen _ (List.mem_map.2 ⟨x, hx, rfl⟩)
    have hfields := Message.readFields_write hi (hitem x hx inner (by omega) hx')
    simp only [Field.read, expect, ↓reduceIte, deeper, readDelimited_prefixed hx', ok_bind]
    refine (congrArg (· >>= _) hfields).trans ?_
    rw [ok_bind]
  exact .of_elements (item.write order) hread

end

/-! ## Reading messages -/

mutual

theorem Field.fieldsRead {order : EntryOrder} : ∀ (f : Field) (tag depth : Nat) (v : f.Value),
    f.numbered = true → f.depth ≤ depth → f.IntegersFit v →
    (f.write order tag v).length < 0x10000000000000000 →
    FieldsRead (fun _ => f.read depth) (f.occurrences order tag v) f.blank v
  | .text, _, _, _, _, _, _, h => fieldsRead_text h
  | .bytes, _, _, _, _, _, _, h => fieldsRead_bytes h
  | .integer, _, _, _, _, _, hv, _ => fieldsRead_integer hv
  | .texts, _, _, _, _, _, _, h => fieldsRead_texts h
  | .table, _, _, _, _, hd, _, h => fieldsRead_table hd h
  | .messages name item, _, _, _, hn, hd, hv, h =>
    fieldsRead_messages hd hn h fun x hx inner hinner hlen =>
      Message.fieldsRead item name inner x hn hinner (hv x hx) hlen

/-- The occurrences of the fields of a message are read as the message. -/
theorem Message.fieldsRead {order : EntryOrder} : ∀ (m : Message) (name : String) (depth : Nat)
    (v : m.Value), m.numbered = true → m.depth ≤ depth → m.IntegersFit v →
    (m.write order v).length < 0x10000000000000000 →
    FieldsRead (m.take name depth) (m.occurrences order v) m.blank v
  | .nil, _, _, _, _, _, _, _ => .nil _
  | .cons tag label field rest, name, depth, (v, vs), hn, hd, hv, h => by
    obtain ⟨-, htag, hfield, hrest⟩ := Message.numbered_cons hn
    have hdepth : max field.depth rest.depth ≤ depth := hd
    have hlen : (field.write order tag v ++ rest.write order vs).length < 0x10000000000000000 := h
    rw [List.length_append] at hlen
    have hfirst : FieldsRead (fun _ => field.read depth) (field.occurrences order tag v)
        field.blank v := Field.fieldsRead field tag depth v hfield (by omega) hv.1 (by omega)
    have hlater : FieldsRead (rest.take name depth) (rest.occurrences order vs) rest.blank vs :=
      Message.fieldsRead rest name depth vs hrest (by omega) hv.2 (by omega)
    -- First the field is filled while the rest is blank, then the rest while the field stays.
    refine FieldsRead.append (hfirst.first rest.blank ?_) (hlater.later v ?_)
    · exact fun o ho => Field.tag_of_mem_occurrences ho
    · exact fun o ho he => htag (he ▸ Message.tag_mem_of_mem_occurrences ho)

end

/-- **A message is read back from its bytes**, whatever the order of the entries of its tables. -/
theorem Message.readAll_write {order : EntryOrder} {m : Message} {v : m.Value} (name : String)
    (hn : m.numbered = true) (hd : m.depth ≤ 100) (hv : m.IntegersFit v)
    (h : (m.write order v).length < 0x10000000000000000) :
    m.readAll name (m.write order v) = .ok v :=
  Message.readFields_write hn (m.fieldsRead name 100 v hn hd hv h)

/-! ## Lengths -/

theorem length_writeDelimited {tag : Nat} {a b : List UInt8} (h : a.length = b.length) :
    (writeDelimited tag a).length = (writeDelimited tag b).length := by
  simp only [writeDelimited, List.length_append, h]

theorem length_flatMap_congr {α : Type} {f g : α → List UInt8} {xs : List α}
    (h : ∀ x ∈ xs, (f x).length = (g x).length) : (xs.flatMap f).length = (xs.flatMap g).length := by
  rw [List.length_flatMap, List.length_flatMap, List.map_congr_left h]

mutual

theorem Field.length_write (order order' : EntryOrder) : ∀ (f : Field) (tag : Nat) (v : f.Value),
    (f.write order tag v).length = (f.write order' tag v).length
  | .text, _, _ => rfl
  | .bytes, _, _ => rfl
  | .integer, _, _ => rfl
  | .texts, _, _ => rfl
  | .table, tag, t =>
    (((order.perm t).trans (order'.perm t).symm).flatMap_right (writeEntry tag)).length_eq
  | .messages _ item, _, _ =>
    length_flatMap_congr fun x _ => length_writeDelimited (item.length_write order order' x)

/-- The length of a message does not depend on the order of the entries of its tables. -/
theorem Message.length_write (order order' : EntryOrder) : ∀ (m : Message) (v : m.Value),
    (m.write order v).length = (m.write order' v).length
  | .nil, _ => rfl
  | .cons tag _ field rest, (v, vs) => by
    have hfield := Field.length_write order order' field tag v
    have hrest := Message.length_write order order' rest vs
    simp only [Message.write, List.length_append, hfield, hrest]

end

end Chassis.Wire
