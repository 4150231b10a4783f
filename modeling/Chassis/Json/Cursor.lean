import Chassis.Json.Fault

/-!
# A place in a JSON text

A `Cursor` is the part of a text that is still to be read, with the line and column that were
reached. Readers take a cursor and give back the cursor behind what they read. A fault is placed
either where the cursor stands or, when the next byte is to blame, behind that byte.
-/

set_option autoImplicit false

namespace Chassis.Json

/-- The bytes still to be read, and the place reached: lines count from 1, columns from 0. -/
structure Cursor where
  rest : List UInt8
  line : Nat := 1
  column : Nat := 0
deriving Repr

namespace Cursor

/-- The next byte as the character with its number. -/
def peek? (c : Cursor) : Option Char :=
  c.rest.head?.map fun b => Char.ofNat b.toNat

/-- The cursor behind one byte, given the bytes after it. -/
def behind (c : Cursor) (b : UInt8) (rest : List UInt8) : Cursor :=
  if b = 10 then ⟨rest, c.line + 1, 0⟩ else ⟨rest, c.line, c.column + 1⟩

/-- The cursor behind the next byte; at the end it stays. -/
def next (c : Cursor) : Cursor :=
  match c.rest with
  | [] => c
  | b :: rest => c.behind b rest

/-- The cursor behind the next `n` bytes. -/
def skip : Nat → Cursor → Cursor
  | 0, c => c
  | n + 1, c => skip n c.next

/-- Skips bytes with a property, from a place on. -/
def skipWhileFrom (p : Char → Bool) : List UInt8 → Nat → Nat → Cursor
  | [], line, column => ⟨[], line, column⟩
  | b :: rest, line, column =>
    if p (Char.ofNat b.toNat) then
      if b = 10 then skipWhileFrom p rest (line + 1) 0 else skipWhileFrom p rest line (column + 1)
    else ⟨b :: rest, line, column⟩

/-- The cursor behind all leading bytes with a property. -/
def skipWhile (p : Char → Bool) (c : Cursor) : Cursor :=
  skipWhileFrom p c.rest c.line c.column

/-- White space between the tokens of JSON. -/
def isSpace (c : Char) : Bool :=
  c == ' ' || c == '\n' || c == '\t' || c == '\r'

def skipSpace (c : Cursor) : Cursor :=
  c.skipWhile isSpace

def faultHere (c : Cursor) (reason : Reason) : Fault :=
  ⟨reason, c.line, c.column, []⟩

def faultNext (c : Cursor) (reason : Reason) : Fault :=
  c.next.faultHere reason

def fail {α : Type} (c : Cursor) (reason : Reason) : Except Fault α :=
  .error (c.faultHere reason)

def failNext {α : Type} (c : Cursor) (reason : Reason) : Except Fault α :=
  .error (c.faultNext reason)

/-- Reads the given characters, which continue a word of which the first one was read. -/
def readWord : List Char → Cursor → Except Fault Cursor
  | [], c => .ok c
  | w :: ws, c =>
    match c.peek? with
    | none => c.fail .endInValue
    | some b => if b = w then readWord ws c.next else c.next.fail .expectedIdent

end Cursor

def Cursor.ofBytes (bytes : List UInt8) : Cursor := ⟨bytes, 1, 0⟩

end Chassis.Json
