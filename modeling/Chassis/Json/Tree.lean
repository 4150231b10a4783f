import Chassis.Json.Reader
import Chassis.Json.Writer

/-!
# Values of any form

A JSON value nobody knows the shape of. Reading allows at most 127 brackets inside one another and
numbers that a floating point number can hold. The members of an object are kept by ascending key,
and of two with the same key the later one counts.
-/

set_option autoImplicit false

namespace Chassis.Json

inductive Tree
  | null
  | boolean (b : Bool)
  | number (n : Number)
  | text (s : String)
  | list (items : List Tree)
  | object (members : List (String × Tree))

namespace Tree

/-! ## Reading -/

/-- Reads a value with at most `depth` brackets inside one another. -/
def read : Nat → Cursor → Except Fault (Tree × Cursor)
  | depth, c =>
    let c := c.skipSpace
    let word (rest : List Char) (t : Tree) := (c.next.readWord rest).map fun c => (t, c)
    match c.peek? with
    | none => c.failNext .endInValue
    | some 'n' => word ['u', 'l', 'l'] .null
    | some 't' => word ['r', 'u', 'e'] (.boolean true)
    | some 'f' => word ['a', 'l', 's', 'e'] (.boolean false)
    | some '-' => (readNumber false c.next).map fun (n, c) => (.number n, c)
    | some '"' => (readText c.next).map fun (s, c) => (.text s, c)
    | some '[' =>
      match depth with
      | 0 => c.failNext .tooDeep
      | depth + 1 => do
        let (items, c) ← readElements (read depth) (c.rest.length + 1) 0 c.next
        .ok (.list items, ← closeList c)
    | some '\x7b' =>
      match depth with
      | 0 => c.failNext .tooDeep
      | depth + 1 => do
        let (members, c) ← readMembers (fun key members c => do
          let (value, c) ← readMemberValue (read depth) key c
          .ok (insertSorted key value members, c)) (c.rest.length + 1) true [] c.next
        .ok (.object members, ← closeObject c)
    | some d =>
      if d.isDigit then (readNumber true c).map fun (n, c) => (.number n, c)
      else c.failNext .expectedValue

def ofBytes (bytes : List UInt8) : Except Fault Tree := do
  let (t, c) ← read 127 (.ofBytes bytes)
  readEnd c
  .ok t

/-! ## Writing -/

def numberText : Number → String
  | .integer n => toString n
  | .floating x => Decimal.render .json x

mutual

def writeLine : Tree → List Char
  | null => "null".toList
  | boolean b => (toString b).toList
  | number n => (numberText n).toList
  | text s => writeText s
  | list items => '[' :: commaSeparated (writeItems items) ++ [']']
  | object members => '\x7b' :: commaSeparated (writeMembers members) ++ ['\x7d']

/-- The compact texts of the elements of a list. -/
def writeItems : List Tree → List (List Char)
  | [] => []
  | t :: rest => writeLine t :: writeItems rest

/-- The compact texts of the members of an object. -/
def writeMembers : List (String × Tree) → List (List Char)
  | [] => []
  | (key, t) :: rest => writeMember key (writeLine t) :: writeMembers rest

end

/-! ## Writing on several lines -/

def newLine (indent : Nat) : List Char := '\n' :: List.replicate indent ' '

/-- Parts between brackets, each on a line of its own. -/
def block (opening closing : Char) (indent : Nat) (parts : List (List Char)) : List Char :=
  if parts.isEmpty then [opening, closing]
  else opening :: commaSeparated (parts.map (newLine (indent + 2) ++ ·)) ++
    newLine indent ++ [closing]

mutual

/-- The text of a value whose brackets stand at an indent. -/
def pretty (indent : Nat) : Tree → List Char
  | null => "null".toList
  | boolean b => (toString b).toList
  | number n => (numberText n).toList
  | text s => writeText s
  | list items => block '[' ']' indent (prettyItems (indent + 2) items)
  | object members => block '\x7b' '\x7d' indent (prettyMembers (indent + 2) members)

def prettyItems (indent : Nat) : List Tree → List (List Char)
  | [] => []
  | t :: rest => pretty indent t :: prettyItems indent rest

def prettyMembers (indent : Nat) : List (String × Tree) → List (List Char)
  | [] => []
  | (key, t) :: rest =>
    (writeText key ++ ':' :: ' ' :: pretty indent t) :: prettyMembers indent rest

end

def render (t : Tree) : String := String.ofList (pretty 0 t)

end Tree

end Chassis.Json
