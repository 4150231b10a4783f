import Chassis.Json.Reader
import Chassis.Proofs.Json.Text

/-!
# JSON texts

What a JSON text is, said without a reader. A `Form` is a value together with everything that stands
in its text: the white space between the tokens, the digits of numbers, the escapes of strings. Its
`bytes` are then a matter of writing the parts one behind the other, and **bytes are a JSON text
when they are those of a form between white space** (`Form.IsTextOf`).

The grammar is that of RFC 8259, over bytes: the content of a string is any bytes but quotation
marks, backslashes and control characters, and escapes. Whether a string is a text, that is whether
its bytes are UTF-8 and its surrogates come in pairs, is a question about the value of the string
(`textOf?`), like the question whether a number is a natural one (`Numeral.natural?`).

What a form spells for a reader that expects a shape is `Shape.ofForm?`.
-/

set_option autoImplicit false

namespace Chassis.Json

open Text

/-! ## Tokens -/

/-- White space between tokens. -/
structure Gap where
  bytes : List UInt8
  blank : ∀ b ∈ bytes, Cursor.isSpace (Char.ofNat b.toNat) = true

def Gap.none : Gap := ⟨[], by simp⟩

/-- Digits, at least one. -/
structure Digits where
  bytes : List UInt8
  digit : ∀ b ∈ bytes, (Char.ofNat b.toNat).isDigit = true
  ne_nil : bytes ≠ []

/-- The number that digits stand for. -/
def Digits.value (ds : Digits) : Nat :=
  Nat.ofDigitChars 10 (ds.bytes.map fun b => Char.ofNat b.toNat) 0

/-- An exponent: its letter, its sign if there is one, and its digits. -/
structure Exponent where
  letter : UInt8
  sign : List UInt8
  digits : Digits
  letter_eq : letter = 0x65 ∨ letter = 0x45
  sign_eq : sign = [] ∨ sign = [0x2B] ∨ sign = [0x2D]

/-- A number as it is written. Only zero itself starts with a zero. -/
structure Numeral where
  negative : Bool
  whole : Digits
  fraction : Option Digits
  exponent : Option Exponent
  leading : ∀ t, whole.bytes = 0x30 :: t → t = []

namespace Numeral

def fractionBytes : Option Digits → List UInt8
  | none => []
  | some ds => 0x2E :: ds.bytes

def exponentBytes : Option Exponent → List UInt8
  | none => []
  | some e => e.letter :: (e.sign ++ e.digits.bytes)

/-- What is written behind the sign. -/
def magnitude (n : Numeral) : List UInt8 :=
  n.whole.bytes ++ (fractionBytes n.fraction ++ exponentBytes n.exponent)

def bytes (n : Numeral) : List UInt8 :=
  if n.negative then 0x2D :: n.magnitude else n.magnitude

/-- The natural number that is written with digits alone. -/
def natural? (n : Numeral) : Option Nat :=
  match n.negative, n.fraction, n.exponent with
  | false, none, none => some n.whole.value
  | _, _, _ => none

end Numeral

/-- The number of a code unit that four hexadecimal digits stand for. -/
def hexUnit? (a b c d : UInt8) : Option Nat :=
  let digit (x : UInt8) := Utf8.hexValue? (Char.ofNat x.toNat)
  match digit a, digit b, digit c, digit d with
  | some a, some b, some c, some d => some (((a * 16 + b) * 16 + c) * 16 + d)
  | _, _, _, _ => none

/-- A piece of the content of a string: a byte that stands for itself, a letter behind a backslash,
or the number of a code unit. -/
inductive Piece
  | plain (b : UInt8) (h : IsPlain b)
  | letter (e b : UInt8) (h : simpleEscape? (Char.ofNat e.toNat) = some b)
  | unit (w x y z : UInt8) (n : Nat) (h : hexUnit? w x y z = some n)

def Piece.bytes : Piece → List UInt8
  | .plain b _ => [b]
  | .letter e _ _ => [0x5C, e]
  | .unit w x y z _ _ => [0x5C, 0x75, w, x, y, z]

def contentBytes (ps : List Piece) : List UInt8 := ps.flatMap Piece.bytes

/-- The bytes of what a string stands for. A code unit of the upper surrogates makes one character
with one of the lower surrogates behind it; alone, neither makes any. -/
def decoded? : List Piece → Option (List UInt8)
  | [] => some []
  | .plain b _ :: ps => (decoded? ps).map (b :: ·)
  | .letter _ b _ :: ps => (decoded? ps).map (b :: ·)
  | .unit _ _ _ _ n _ :: ps =>
    if 0xDC00 ≤ n ∧ n ≤ 0xDFFF then none
    else if n < 0xD800 ∨ 0xDBFF < n then
      (decoded? ps).map (Utf8.encodeChar (Char.ofNat n) ++ ·)
    else
      match ps with
      | .unit _ _ _ _ m _ :: ps =>
        if m < 0xDC00 ∨ 0xDFFF < m then none
        else
          let pair := (n - 0xD800) * 0x400 + (m - 0xDC00) + 0x10000
          (decoded? ps).map (Utf8.encodeChar (Char.ofNat pair) ++ ·)
      | _ => none

/-- The text that a string stands for, if it stands for one. -/
def textOf? (ps : List Piece) : Option String := (decoded? ps).bind Utf8.decode?

/-- A string between its quotation marks. -/
def stringBytes (ps : List Piece) : List UInt8 := 0x22 :: (contentBytes ps ++ [0x22])

/-! ## Values -/

mutual

/-- A value as it is written. The white space behind an opening bracket stands with the bracket. -/
inductive Form
  | null
  | boolean (b : Bool)
  | number (n : Numeral)
  | text (ps : List Piece)
  | list (gap : Gap) (items : Elements)
  | object (gap : Gap) (members : Members)

/-- The elements of a list, each with the white space around it. -/
inductive Elements
  | nil
  | cons (before : Gap) (value : Form) (after : Gap) (rest : Elements)

/-- The members of an object, each with the white space before its key, around its colon and behind
its value. -/
inductive Members
  | nil
  | cons (before : Gap) (key : List Piece) (beforeColon afterColon : Gap) (value : Form)
      (after : Gap) (rest : Members)

end

/-- The comma in front of all but the first part. -/
def comma (first : Bool) : List UInt8 := if first then [] else [0x2C]

mutual

def Form.bytes : Form → List UInt8
  | .null => [0x6E, 0x75, 0x6C, 0x6C]
  | .boolean true => [0x74, 0x72, 0x75, 0x65]
  | .boolean false => [0x66, 0x61, 0x6C, 0x73, 0x65]
  | .number n => n.bytes
  | .text ps => stringBytes ps
  | .list gap items => 0x5B :: (gap.bytes ++ (items.bytes true ++ [0x5D]))
  | .object gap members => 0x7B :: (gap.bytes ++ (members.bytes true ++ [0x7D]))

/-- The bytes of elements; `first` tells that they are all elements of the list. -/
def Elements.bytes : Elements → Bool → List UInt8
  | .nil, _ => []
  | .cons before value after rest, first =>
    comma first ++ (before.bytes ++ (value.bytes ++ (after.bytes ++ rest.bytes false)))

/-- The bytes of members; `first` tells that they are all members of the object. -/
def Members.bytes : Members → Bool → List UInt8
  | .nil, _ => []
  | .cons before key beforeColon afterColon value after rest, first =>
    comma first ++ (before.bytes ++ (stringBytes key ++ (beforeColon.bytes ++ (0x3A ::
      (afterColon.bytes ++ (value.bytes ++ (after.bytes ++ rest.bytes false)))))))

end

/-- The bytes are a JSON text of the value. -/
def Form.IsTextOf (f : Form) (bytes : List UInt8) : Prop :=
  ∃ before after : Gap, bytes = before.bytes ++ (f.bytes ++ after.bytes)

/-! ## What values spell -/

def Elements.toList : Elements → List Form
  | .nil => []
  | .cons _ value _ rest => value :: rest.toList

/-- The members with their keys; a key that is no text is `none`. -/
def Members.toList : Members → List (Option String × Form)
  | .nil => []
  | .cons _ key _ _ value _ rest => (textOf? key, value) :: rest.toList

/-- The text that a value is. -/
def Form.text? : Form → Option String
  | .text ps => textOf? ps
  | _ => none

/-- The natural number that a value is. -/
def Form.natural? : Form → Option Nat
  | .number n => n.natural?
  | _ => none

/-- The number of 16 bits that a value is. -/
def Form.word16? (f : Form) : Option UInt16 :=
  f.natural?.bind fun k => if k < 65536 then some k.toUInt16 else none

/-- The table of texts that a value is. Of two members with the same key the later one counts. -/
def Form.table? : Form → Option Table
  | .object _ ms =>
    ms.toList.foldlM (fun t m => do some (Table.insert t (← m.1) (← m.2.text?))) Table.empty
  | _ => none

/-- What is taken for a field that is missing. -/
def Presence.missing? {α : Type} (presence : Presence) (blank : α) : Option α :=
  if presence = .required then none else some blank

/-- What is taken for a field, given the members with its key. -/
def Presence.sole? {α : Type} (presence : Presence) (blank : α) (spell? : Form → Option α) :
    List (Option String × Form) → Option α
  | [] => presence.missing? blank
  | [m] => spell? m.2
  | _ => none

mutual

/-- What a value spells where a shape is expected. -/
def Shape.ofForm? : (s : Shape) → Form → Option s.Value
  | .text => Form.text?
  | .word16 => Form.word16?
  | .table => Form.table?
  | .list item => fun f =>
    match f with
    | .list _ es => es.toList.mapM item.ofForm?
    | _ => none
  | .record _ fields => fun f =>
    match f with
    | .list _ es => fields.ofElements? es.toList
    | .object _ ms => if ms.toList.all (·.1.isSome) then fields.ofMembers? ms.toList else none
    | _ => none

/-- The fields of a record among the members of an object: each at most once, and none missing that
is required. Other members do not matter. -/
def Fields.ofMembers? : (fs : Fields) → List (Option String × Form) → Option fs.Value
  | .nil, _ => some ()
  | .cons key presence shape rest, ms => do
    let value ← presence.sole? shape.blank shape.ofForm? (ms.filter (·.1 == some key))
    some (value, ← rest.ofMembers? ms)

/-- The fields of a record as the elements of a list, in order; only such as are not required may be
missing at the end. -/
def Fields.ofElements? : (fs : Fields) → List Form → Option fs.Value
  | .nil, [] => some ()
  | .nil, _ :: _ => none
  | .cons _ presence shape rest, [] => do
    let value ← presence.missing? shape.blank
    some (value, ← rest.ofElements? [])
  | .cons _ _ shape rest, f :: fs => do
    let value ← shape.ofForm? f
    some (value, ← rest.ofElements? fs)

end

end Chassis.Json
