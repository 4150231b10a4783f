import Chassis.Table
import Chassis.Text.Utf8

/-!
# Messages on the RPC wire

A message is a sequence of numbered fields. `Message` describes which fields a message has and
`Message.Value` is the type of what they hold; as with JSON, one writer and one reader serve every
message. A field that holds its blank value is not written. The protocol leaves open in which order
the entries of a table are written, and so does the writer: it is given an `EntryOrder`.
-/

set_option autoImplicit false

namespace Chassis.Wire

mutual

/-- What a field holds: one value, of which the last on the wire counts, or one for each time the
field occurs. -/
inductive Field
  | text
  | bytes
  | integer
  | texts
  | table
  | messages (name : String) (item : Message)

/-- The fields of a message with their numbers and names. -/
inductive Message
  | nil
  | cons (tag : Nat) (name : String) (field : Field) (rest : Message)

end

mutual

def Field.Value : Field → Type
  | .text => String
  | .bytes => List UInt8
  | .integer => Int
  | .texts => List String
  | .table => Table
  | .messages _ item => List item.Value

/-- The type of what the fields of a message hold. -/
def Message.Value : Message → Type
  | .nil => Unit
  | .cons _ _ field rest => field.Value × rest.Value

end

/-- What a field holds before anything is read. -/
def Field.blank : (f : Field) → f.Value
  | .text => ""
  | .bytes => ([] : List UInt8)
  | .integer => (0 : Int)
  | .texts => ([] : List String)
  | .table => Table.empty
  | .messages _ _ => []

def Message.blank : (m : Message) → m.Value
  | .nil => ()
  | .cons _ _ field rest => (field.blank, rest.blank)

/-! ## Writing -/

/-- An order in which each table puts its entries on the wire. -/
structure EntryOrder where
  entries : Table → List (String × String)
  perm : ∀ t, (entries t).Perm t.entries

def EntryOrder.ascending : EntryOrder := ⟨Table.entries, fun _ => .refl _⟩

/-- Groups of seven bits, the lowest first, all but the last with the top bit set. Ten groups hold
any 64-bit number. -/
def varintLoop : Nat → Nat → List UInt8
  | 0, _ => []
  | fuel + 1, n =>
    if n < 0x80 then [n.toUInt8] else (0x80 + n % 0x80).toUInt8 :: varintLoop fuel (n / 0x80)

def writeVarint (n : Nat) : List UInt8 := varintLoop 10 n

/-- The number and the wire type of a field. -/
def writeKey (tag wireType : Nat) : List UInt8 := writeVarint (tag * 8 + wireType)

/-- A field whose contents are preceded by their length. -/
def writeDelimited (tag : Nat) (contents : List UInt8) : List UInt8 :=
  writeKey tag 2 ++ writeVarint contents.length ++ contents

def writeNonEmpty (tag : Nat) (s : String) : List UInt8 :=
  if s = "" then [] else writeDelimited tag (Text.Utf8.encode s)

/-- An entry of a table: the key and the value as the fields 1 and 2 of a message. -/
def writeEntry (tag : Nat) (e : String × String) : List UInt8 :=
  writeDelimited tag (writeNonEmpty 1 e.1 ++ writeNonEmpty 2 e.2)

/-- An integer as an unsigned number of 64 bits. -/
def unsigned64 (n : Int) : Nat := (n % 0x10000000000000000).toNat

mutual

def Field.write (order : EntryOrder) : (f : Field) → (tag : Nat) → f.Value → List UInt8
  | .text, tag => fun (v : String) => writeNonEmpty tag v
  | .bytes, tag => fun (v : List UInt8) => if v.isEmpty then [] else writeDelimited tag v
  | .integer, tag => fun (v : Int) =>
    if v = 0 then [] else writeKey tag 0 ++ writeVarint (unsigned64 v)
  | .texts, tag => fun (v : List String) =>
    v.flatMap fun s => writeDelimited tag (Text.Utf8.encode s)
  | .table, tag => fun (v : Table) => (order.entries v).flatMap (writeEntry tag)
  | .messages _ item, tag => fun (v : List item.Value) =>
    v.flatMap fun x => writeDelimited tag (item.write order x)

def Message.write (order : EntryOrder) : (m : Message) → m.Value → List UInt8
  | .nil => fun _ => []
  | .cons tag _ field rest => fun (v : field.Value × rest.Value) =>
    field.write order tag v.1 ++ rest.write order v.2

end

end Chassis.Wire
