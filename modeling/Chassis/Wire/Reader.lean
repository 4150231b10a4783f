import Chassis.Wire.Message

/-!
# Reading messages

Fields may come in any order and any number of times. A field with an unknown number is passed over,
whatever it holds, down to a depth of one hundred groups inside one another. A known field with the
wrong wire type, a number or length that is cut short, and a text that is not UTF-8 are faults.
-/

set_option autoImplicit false

namespace Chassis.Wire

/-- How the contents of a field are written. -/
inductive WireType
  | varint
  | sixtyFourBit
  | lengthDelimited
  | startGroup
  | endGroup
  | thirtyTwoBit
deriving DecidableEq, Repr

def WireType.ofNumber? : Nat → Option WireType
  | 0 => some varint
  | 1 => some sixtyFourBit
  | 2 => some lengthDelimited
  | 3 => some startGroup
  | 4 => some endGroup
  | 5 => some thirtyTwoBit
  | _ => none

def WireType.name : WireType → String
  | varint => "Varint"
  | sixtyFourBit => "SixtyFourBit"
  | lengthDelimited => "LengthDelimited"
  | startGroup => "StartGroup"
  | endGroup => "EndGroup"
  | thirtyTwoBit => "ThirtyTwoBit"

inductive Reason
  | invalidVarint
  | invalidKey (n : Nat)
  | invalidWireType (n : Nat)
  | invalidTag
  | unexpectedWireType (found expected : WireType)
  | underflow
  | notText
  | endGroup
  | tooDeep
deriving DecidableEq, Repr

def Reason.message : Reason → String
  | invalidVarint => "invalid varint"
  | invalidKey n => s!"invalid key value: {n}"
  | invalidWireType n => s!"invalid wire type value: {n}"
  | invalidTag => "invalid tag value: 0"
  | unexpectedWireType found expected =>
    s!"invalid wire type: {found.name} (expected {expected.name})"
  | underflow => "buffer underflow"
  | notText => "invalid string value: data is not UTF-8 encoded"
  | endGroup => "unexpected end group tag"
  | tooDeep => "recursion limit reached"

/-- A reason with the fields that lead to it, the outermost first. -/
structure Fault where
  reason : Reason
  path : List (String × String) := []
deriving DecidableEq, Repr

def Fault.message (f : Fault) : String :=
  "failed to decode Protobuf message: " ++
    String.join (f.path.map fun p => s!"{p.1}.{p.2}: ") ++ f.reason.message

/-- The fault, seen from a message around it. -/
def Fault.within (message field : String) (f : Fault) : Fault :=
  { f with path := (message, field) :: f.path }

def fail {α : Type} (reason : Reason) : Except Fault α := .error ⟨reason, []⟩

/-! ## Numbers and keys -/

/-- Reads the groups of a number, `shift` bits of which are known to be `acc`. At most ten groups
are read, and the tenth holds a single bit. -/
def readVarintLoop : Nat → Nat → Nat → List UInt8 → Except Fault (Nat × List UInt8)
  | 0, _, _, _ => fail .invalidVarint
  | _, _, _, [] => fail .invalidVarint
  | fuel + 1, shift, acc, b :: rest =>
    if fuel = 0 ∧ 2 ≤ b.toNat then fail .invalidVarint
    else if b < 0x80 then .ok (acc + b.toNat * Nat.pow 2 shift, rest)
    else readVarintLoop fuel (shift + 7) (acc + (b.toNat - 0x80) * Nat.pow 2 shift) rest

def readVarint (bs : List UInt8) : Except Fault (Nat × List UInt8) :=
  readVarintLoop 10 0 0 bs

/-- Reads the number and the wire type of a field. -/
def readKey (bs : List UInt8) : Except Fault ((Nat × WireType) × List UInt8) := do
  let (key, rest) ← readVarint bs
  if 0x100000000 ≤ key then fail (.invalidKey key)
  else
    match WireType.ofNumber? (key % 8) with
    | none => fail (.invalidWireType (key % 8))
    | some wireType =>
      if key / 8 = 0 then fail .invalidTag else .ok ((key / 8, wireType), rest)

def readDelimited (bs : List UInt8) : Except Fault (List UInt8 × List UInt8) := do
  let (length, rest) ← readVarint bs
  if rest.length < length then fail .underflow else .ok (rest.take length, rest.drop length)

/-- The field has the wire type that is expected. -/
def expect (expected found : WireType) : Except Fault Unit :=
  if found = expected then .ok () else fail (.unexpectedWireType found expected)

def readText (wireType : WireType) (bs : List UInt8) : Except Fault (String × List UInt8) := do
  expect .lengthDelimited wireType
  let (contents, rest) ← readDelimited bs
  match Text.Utf8.decode? contents with
  | some s => .ok (s, rest)
  | none => fail .notText

/-! ## Skipping -/

def dropExactly (n : Nat) (bs : List UInt8) : Except Fault (List UInt8) :=
  if bs.length < n then fail .underflow else .ok (bs.drop n)

/-- Skips the fields of a group up to the end of it. -/
def skipGroup (skip : Nat → WireType → List UInt8 → Except Fault (List UInt8)) (tag : Nat) :
    Nat → List UInt8 → Except Fault (List UInt8)
  | 0, _ => fail .invalidVarint
  | fuel + 1, bs => do
    let ((inner, wireType), rest) ← readKey bs
    if wireType = .endGroup then if inner = tag then .ok rest else fail .endGroup
    else skipGroup skip tag fuel (← skip inner wireType rest)

/-- Skips the contents of a field; `depth` groups may still be opened. -/
def skipField : (depth tag : Nat) → WireType → List UInt8 → Except Fault (List UInt8)
  | 0, _, _, _ => fail .tooDeep
  | depth + 1, tag, wireType, bs =>
    match wireType with
    | .varint => (readVarint bs).map (·.2)
    | .thirtyTwoBit => dropExactly 4 bs
    | .sixtyFourBit => dropExactly 8 bs
    | .lengthDelimited => (readDelimited bs).map (·.2)
    | .startGroup => skipGroup (skipField depth) tag (bs.length + 1) bs
    | .endGroup => fail .endGroup

/-! ## Fields -/

/-- Reads fields onto a state until no byte is left. -/
def readFields {σ : Type}
    (read : Nat → WireType → σ → List UInt8 → Except Fault (σ × List UInt8)) :
    Nat → σ → List UInt8 → Except Fault σ
  | _, state, [] => .ok state
  | 0, _, _ => fail .invalidVarint
  | fuel + 1, state, bs => do
    let ((tag, wireType), rest) ← readKey bs
    let (state, rest) ← read tag wireType state rest
    readFields read fuel state rest

/-- Reads the key or the value of an entry of a table. -/
def readEntryField (depth tag : Nat) (wireType : WireType) (e : String × String)
    (bs : List UInt8) : Except Fault ((String × String) × List UInt8) := do
  match tag with
  | 1 => let (s, rest) ← readText wireType bs; .ok ((s, e.2), rest)
  | 2 => let (s, rest) ← readText wireType bs; .ok ((e.1, s), rest)
  | _ => .ok (e, ← skipField depth tag wireType bs)

/-- The 32-bit signed integer in the low bits of a number. -/
def signed32 (n : Nat) : Int := Int.bmod (n : Int) 0x100000000

/-- One level further in, if there is one left. -/
def deeper {α : Type} (depth : Nat) (k : Nat → Except Fault α) : Except Fault α :=
  match depth with
  | 0 => fail .tooDeep
  | depth + 1 => k depth

mutual

/-- Reads one occurrence of a field onto what it holds. -/
def Field.read : (f : Field) → (depth : Nat) → WireType → f.Value → List UInt8 →
    Except Fault (f.Value × List UInt8)
  | .text, _, wireType => fun _ bs => readText wireType bs
  | .bytes, _, wireType => fun _ bs => do
    expect .lengthDelimited wireType
    readDelimited bs
  | .integer, _, wireType => fun _ bs => do
    expect .varint wireType
    let (n, rest) ← readVarint bs
    .ok (signed32 n, rest)
  | .texts, _, wireType => fun (v : List String) bs => do
    let (s, rest) ← readText wireType bs
    .ok (v ++ [s], rest)
  | .table, depth, _ => fun (v : Table) bs =>
    deeper depth fun inner => do
      let (contents, rest) ← readDelimited bs
      let e ← readFields (readEntryField inner) contents.length ("", "") contents
      .ok (v.insert e.1 e.2, rest)
  | .messages name item, depth, wireType => fun (v : List item.Value) bs => do
    expect .lengthDelimited wireType
    deeper depth fun inner => do
      let (contents, rest) ← readDelimited bs
      let x ← readFields (fun tag wireType state bs =>
        match item.readField name inner tag wireType state bs with
        | some r => r
        | none => do .ok (state, ← skipField inner tag wireType bs))
        contents.length item.blank contents
      .ok (v ++ [x], rest)

/-- Reads one occurrence of the field with a number, if the message has it. -/
def Message.readField : (m : Message) → (name : String) → (depth tag : Nat) → WireType → m.Value →
    List UInt8 → Option (Except Fault (m.Value × List UInt8))
  | .nil, _, _, _, _ => fun _ _ => none
  | .cons number label field rest, name, depth, tag, wireType =>
    fun (v : field.Value × rest.Value) bs =>
      if tag = number then some <|
        ((field.read depth wireType v.1 bs).map fun (x, bs) => ((x, v.2), bs)).mapError
          (Fault.within name label)
      else (rest.readField name depth tag wireType v.2 bs).map fun r =>
        r.map fun (x, bs) => ((v.1, x), bs)

end

def Message.readAll (m : Message) (name : String) (bs : List UInt8) : Except Fault m.Value :=
  readFields (fun tag wireType state bs =>
    match m.readField name 100 tag wireType state bs with
    | some r => r
    | none => do .ok (state, ← skipField 100 tag wireType bs))
    bs.length m.blank bs

end Chassis.Wire
