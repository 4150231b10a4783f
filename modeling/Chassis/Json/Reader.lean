import Chassis.Json.Shape
import Chassis.Json.Skip

/-!
# Reading JSON

A value is read by its shape. A record may be written as an object, whose unknown members are passed
over and whose missing ones take their blank value unless they are required, or as the list of its
fields in order. A fault of a record as a whole (a field missing, a field twice, a list that is too
short) is placed behind the record.
-/

set_option autoImplicit false

namespace Chassis.Json

/-- Refuses a value that starts with the next byte and is not of the expected type. -/
def failType {α : Type} (expected : String) (c : Cursor) : Except Fault α :=
  let refuse (r : Except Fault (Found × Cursor)) : Except Fault α := do
    let (found, c) ← r
    c.fail (.invalidType found expected)
  match c.peek? with
  | none => c.failNext .endInValue
  | some 'n' => refuse ((c.next.readWord ['u', 'l', 'l']).map fun c => (.null, c))
  | some 't' => refuse ((c.next.readWord ['r', 'u', 'e']).map fun c => (.boolean true, c))
  | some 'f' => refuse ((c.next.readWord ['a', 'l', 's', 'e']).map fun c => (.boolean false, c))
  | some '-' => refuse ((readNumber false c.next).map fun (n, c) => (n.found, c))
  | some '"' => refuse ((readText c.next).map fun (s, c) => (.text s, c))
  | some '[' => c.fail (.invalidType .sequence expected)
  | some '\x7b' => c.fail (.invalidType .map expected)
  | some d =>
    if d.isDigit then refuse ((readNumber true c).map fun (n, c) => (n.found, c))
    else c.failNext .expectedValue

/-! ## Values without parts -/

def readTextValue (c : Cursor) : Except Fault (String × Cursor) :=
  let c := c.skipSpace
  match c.peek? with
  | some '"' => readText c.next
  | _ => failType "a string" c

def word16Of (c : Cursor) : Number → Except Fault (UInt16 × Cursor)
  | .integer n =>
    if 0 ≤ n ∧ n < 65536 then .ok (n.toNat.toUInt16, c)
    else c.fail (.invalidValue (.integer n) "u16")
  | .floating x => c.fail (.invalidType (Number.floating x).found "u16")

def readWord16 (c : Cursor) : Except Fault (UInt16 × Cursor) :=
  let c := c.skipSpace
  let digit := c.peek?.any Char.isDigit
  match c.peek? with
  | some '-' => do
    let (n, c) ← readNumber false c.next
    word16Of c n
  | _ =>
    if digit then do
      let (n, c) ← readNumber true c
      word16Of c n
    else failType "u16" c

/-! ## Values with parts -/

/-- Reads the elements of a list, up to its closing bracket. -/
def readElements {α : Type} (read : Cursor → Except Fault (α × Cursor)) :
    Nat → Nat → Cursor → Except Fault (List α × Cursor)
  | 0, _, c => c.fail .endInList
  | fuel + 1, position, c => do
    let (more, c) ← nextElement (position == 0) c
    if more then
      let (a, c) ← (read c).mapError (Fault.within (.index position))
      let (rest, c) ← readElements read fuel (position + 1) c
      .ok (a :: rest, c)
    else .ok ([], c)

/-- Reads the members of an object onto a state, up to its closing bracket. `read` is given the key
and the cursor behind it. -/
def readMembers {σ : Type} (read : String → σ → Cursor → Except Fault (σ × Cursor)) :
    Nat → Bool → σ → Cursor → Except Fault (σ × Cursor)
  | 0, _, _, c => c.fail .endInObject
  | fuel + 1, first, state, c => do
    let (more, c) ← nextKey first c
    if more then
      let (key, c) ← readText c.next
      let (state, c) ← read key state c
      readMembers read fuel false state c
    else .ok (state, c)

/-- Reads the value of a member behind its key. -/
def readMemberValue {α : Type} (read : Cursor → Except Fault (α × Cursor)) (key : String)
    (c : Cursor) : Except Fault (α × Cursor) :=
  (do read (← readColon c)).mapError (Fault.within (.field key))

/-- Passes over the value of a member behind its key. -/
def skipMemberValue (key : String) (c : Cursor) : Except Fault Cursor :=
  (do skipValue (← readColon c)).mapError (Fault.within (.field key))

/-- Reads the value of an entry of a table, and puts it under its key. -/
def readEntry (key : String) (t : Table) (c : Cursor) : Except Fault (Table × Cursor) := do
  let (value, c) ← readMemberValue readTextValue key c
  .ok (t.insert key value, c)

def readTable (c : Cursor) : Except Fault (Table × Cursor) :=
  let c := c.skipSpace
  match c.peek? with
  | some '\x7b' => do
    let (t, c) ← readMembers readEntry (c.rest.length + 1) true Table.empty c.next
    .ok (t, ← closeObject c)
  | _ => failType "a map" c

/-- The fields of a record that were read so far. -/
def Fields.Slots : Fields → Type
  | .nil => Unit
  | .cons _ _ shape rest => Option shape.Value × rest.Slots

def Fields.noSlots : (fs : Fields) → fs.Slots
  | .nil => ()
  | .cons _ _ _ rest => (none, rest.noSlots)

/-- The record with the fields that were read; the name of the first required one that is missing
otherwise. -/
def Fields.finish : (fs : Fields) → fs.Slots → Except String fs.Value
  | .nil, _ => .ok ()
  | .cons key presence shape rest, (slot, slots) => do
    let value ← match slot with
      | some v => .ok v
      | none => if presence = .required then .error key else .ok shape.blank
    .ok (value, ← rest.finish slots)

mutual

def Shape.read : (s : Shape) → Cursor → Except Fault (s.Value × Cursor)
  | .text => readTextValue
  | .word16 => readWord16
  | .table => readTable
  | .list item => fun c =>
    let c := c.skipSpace
    match c.peek? with
    | some '[' => do
      let (items, c) ← readElements item.read (c.rest.length + 1) 0 c.next
      .ok (items, ← closeList c)
    | _ => failType "a sequence" c
  | .record name fields => fun c =>
    let c := c.skipSpace
    match c.peek? with
    | some '[' => do
      let (v, c) ← fields.readInOrder (expectedRecord name fields.count) 0 c.next
      .ok (v, ← closeList c)
    | some '\x7b' => do
      let (slots, c) ← readMembers (fun key slots c =>
        match fields.readMember key slots c with
        | some r => r
        | none => do .ok (slots, ← skipMemberValue key c))
        (c.rest.length + 1) true fields.noSlots c.next
      match fields.finish slots with
      | .ok v => .ok (v, ← closeObject c)
      | .error key => (placeAfterObject c).fail (.missingField key)
    | _ => failType ("struct " ++ name) c

/-- Reads the member with a key behind that key, if it is one of the fields. -/
def Fields.readMember : (fs : Fields) → String → fs.Slots → Cursor →
    Option (Except Fault (fs.Slots × Cursor))
  | .nil, _, _, _ => none
  | .cons name _ shape rest, key, (slot, slots), c =>
    if key = name then
      match slot with
      | some _ => some ((placeAfterObject c).fail (.duplicateField name))
      | none => some do
        let (v, c) ← readMemberValue shape.read key c
        .ok ((some v, slots), c)
    else
      (rest.readMember key slots c).map fun r => do
        let (slots, c) ← r
        .ok ((slot, slots), c)

/-- Reads the fields from the elements of a list, from a position on. -/
def Fields.readInOrder : (fs : Fields) → String → Nat → Cursor →
    Except Fault (fs.Value × Cursor)
  | .nil, _, _, c => .ok ((), c)
  | .cons _ presence shape rest, expected, position, c => do
    let (more, c) ← nextElement (position == 0) c
    let (v, c) ←
      if more then (shape.read c).mapError (Fault.within (.index position))
      else if presence = .required then (placeAfterList c).fail (.invalidLength position expected)
      else .ok (shape.blank, c)
    let (vs, c) ← rest.readInOrder expected (position + 1) c
    .ok ((v, vs), c)

end

/-- Reads a whole text as a value of a shape. -/
def Shape.readDocument (s : Shape) (bytes : List UInt8) : Except Fault s.Value := do
  let (v, c) ← s.read (.ofBytes bytes)
  readEnd c
  .ok v

/-- Reads a whole text as a value of a type. -/
def Layout.decode {α : Type} (l : Layout α) (bytes : List UInt8) : Except Fault α :=
  (l.shape.readDocument bytes).map l.ofValue

end Chassis.Json
