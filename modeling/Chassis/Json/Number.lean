import Chassis.Json.Cursor
import Chassis.Decimal.Format

/-!
# Numbers in JSON

A number without fraction and exponent that fits 64 bits is an integer. Any other is a floating
point number: as many leading digits as fit 64 bits, scaled by a power of ten, each step rounded.
-/

set_option autoImplicit false

namespace Chassis.Json

inductive Number
  | integer (n : Int)
  | floating (x : Float)

def Number.found : Number → Found
  | integer n => .integer n
  | floating x => .floating (Decimal.render .json x)

def digitValue (c : Char) : Nat := c.toNat - '0'.toNat

/-- Reads digits onto a number as long as it stays below 2^64; also tells how many there were. -/
def readDigits : Nat → Nat → Nat → Cursor → Nat × Nat × Cursor
  | 0, acc, count, c => (acc, count, c)
  | fuel + 1, acc, count, c =>
    match c.peek? with
    | none => (acc, count, c)
    | some d =>
      if d.isDigit && acc * 10 + digitValue d < 0x10000000000000000 then
        readDigits fuel (acc * 10 + digitValue d) (count + 1) c.next
      else (acc, count, c)

def Cursor.atDigit (c : Cursor) : Bool := c.peek?.any Char.isDigit

def Cursor.atExponent (c : Cursor) : Bool := c.peek?.any fun b => b == 'e' || b == 'E'

def Cursor.digitCount (c : Cursor) : Nat :=
  (c.rest.takeWhile fun b => (Char.ofNat b.toNat).isDigit).length

/-- The cursor behind the digits that come next. -/
def Cursor.skipDigits (c : Cursor) : Cursor := c.skipWhile Char.isDigit

/-- The power of ten with an exponent of the table. -/
def powerOfTen (n : Nat) : Float := Float.ofScientific 1 false n

/-- Scales a number by a power of ten; an exponent below the table is applied in parts. Nothing if
the result is too large. -/
def scale : Nat → Float → Int → Option Float
  | 0, _, _ => some 0.0
  | fuel + 1, f, exponent =>
    if exponent.natAbs ≤ 308 then
      if 0 ≤ exponent then
        let g := f * powerOfTen exponent.natAbs
        if g.isInf then none else some g
      else some (f / powerOfTen exponent.natAbs)
    else if f == 0.0 then some f
    else if 0 ≤ exponent then none
    else scale fuel (f / powerOfTen 308) (exponent + 308)

/-- The signed floating point number of a significand and an exponent. -/
def ofParts (positive : Bool) (significand : Nat) (exponent : Int) (c : Cursor) :
    Except Fault (Number × Cursor) :=
  match scale 8 significand.toUInt64.toFloat exponent with
  | some f => .ok (.floating (if positive then f else -f), c)
  | none => c.fail .numberOutOfRange

/-- Reads the digits of an exponent; `none` when it does not fit 32 bits, with the cursor behind the
digit that is too much. -/
def readExponentDigits : Nat → Nat → Cursor → Option Nat × Cursor
  | 0, acc, c => (some acc, c)
  | fuel + 1, acc, c =>
    match c.peek? with
    | none => (some acc, c)
    | some d =>
      if d.isDigit then
        let value := acc * 10 + digitValue d
        if value < 0x80000000 then readExponentDigits fuel value c.next else (none, c.next)
      else (some acc, c)

/-- Reads an exponent that starts with its letter. -/
def readExponent (positive : Bool) (significand : Nat) (start : Int) (c : Cursor) :
    Except Fault (Number × Cursor) :=
  let c := c.next
  let (up, c) :=
    match c.peek? with
    | some '+' => (true, c.next)
    | some '-' => (false, c.next)
    | _ => (true, c)
  match c.peek? with
  | none => c.fail .endInValue
  | some d =>
    if !d.isDigit then c.next.fail .invalidNumber
    else
      match readExponentDigits c.rest.length (digitValue d) c.next with
      | (some e, c) => ofParts positive significand (if up then start + e else start - e) c
      | (none, c) =>
        if significand != 0 && up then c.fail .numberOutOfRange
        else .ok (.floating (if positive then 0.0 else -0.0), c.skipDigits)

/-- Reads a fraction that starts with its point; `before` digits of the whole part were left out. -/
def readFraction (positive : Bool) (significand : Nat) (before : Nat) (c : Cursor) :
    Except Fault (Number × Cursor) :=
  let (significand, count, c) := readDigits c.rest.length significand 0 c.next
  if c.atDigit then
    let c := c.skipDigits
    let exponent : Int := before - count
    if c.atExponent then readExponent positive significand exponent c
    else ofParts positive significand exponent c
  else if count = 0 then
    if c.rest.isEmpty then c.failNext .endInValue else c.failNext .invalidNumber
  else if c.atExponent then readExponent positive significand (before - count) c
  else ofParts positive significand (before - count) c

/-- A whole number with a sign. Minus zero, and what is below the least 64-bit integer, is a
floating point number. -/
def wholeNumber (positive : Bool) (significand : Nat) : Number :=
  if positive then .integer significand
  else if 1 ≤ significand ∧ significand ≤ 0x8000000000000000 then .integer (-significand)
  else .floating (-significand.toUInt64.toFloat)

def readNumber (positive : Bool) (c : Cursor) : Except Fault (Number × Cursor) :=
  match c.peek? with
  | none => c.fail .endInValue
  | some d =>
    if !d.isDigit then c.next.fail .invalidNumber
    else if d = '0' && c.next.atDigit then c.next.failNext .invalidNumber
    else
      let (significand, _, c) := readDigits c.rest.length 0 0 c
      let before := c.digitCount
      let c := c.skipDigits
      if c.peek? = some '.' then readFraction positive significand before c
      else if c.atExponent then readExponent positive significand before c
      else if before = 0 then .ok (wholeNumber positive significand, c)
      else ofParts positive significand before c

/-! ## Skipping -/

/-- Skips an exponent that starts with its letter. -/
def skipExponent (c : Cursor) : Except Fault Cursor :=
  let c := c.next
  let c := match c.peek? with
    | some '+' | some '-' => c.next
    | _ => c
  if c.atDigit then .ok c.skipDigits else c.next.fail .invalidNumber

/-- Skips a number behind its sign, without a look at its size. -/
def skipNumber (c : Cursor) : Except Fault Cursor :=
  match c.peek? with
  | none => c.next.fail .invalidNumber
  | some d =>
    if !d.isDigit then c.next.fail .invalidNumber
    else if d = '0' && c.next.atDigit then c.next.failNext .invalidNumber
    else
      let c := if d = '0' then c.next else c.skipDigits
      if c.peek? = some '.' then
        let c := c.next
        if !c.atDigit then c.failNext .invalidNumber
        else
          let c := c.skipDigits
          if c.atExponent then skipExponent c else .ok c
      else if c.atExponent then skipExponent c
      else .ok c

end Chassis.Json
