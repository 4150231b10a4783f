import Chassis.Json.Cursor

/-!
# Texts in JSON

`writeText` puts a text between quotation marks and escapes only what must be: the quotation mark,
the backslash and the control characters below the space. `readText` undoes it and every other
escape that JSON allows; pairs of surrogates make one character, a lone surrogate is refused, and so
are bytes that are not UTF-8.
-/

set_option autoImplicit false

namespace Chassis.Json

open Text

/-! ## Writing -/

def writeChar (c : Char) : List Char :=
  if c = '"' then ['\\', '"']
  else if c = '\\' then ['\\', '\\']
  else if c = '\x08' then ['\\', 'b']
  else if c = '\x0c' then ['\\', 'f']
  else if c = '\n' then ['\\', 'n']
  else if c = '\r' then ['\\', 'r']
  else if c = '\t' then ['\\', 't']
  else if c.toNat < 0x20 then
    ['\\', 'u', '0', '0', Utf8.hexDigit (c.toNat / 16), Utf8.hexDigit (c.toNat % 16)]
  else [c]

def writeText (s : String) : List Char :=
  '"' :: (s.toList.flatMap writeChar ++ ['"'])

/-! ## Reading -/

def readHex (c : Cursor) : Except Fault (Nat × Cursor) :=
  match c.rest with
  | a :: b :: d :: e :: _ =>
    let behind := c.skip 4
    let digit (x : UInt8) := Utf8.hexValue? (Char.ofNat x.toNat)
    match digit a, digit b, digit d, digit e with
    | some a, some b, some d, some e => .ok (((a * 16 + b) * 16 + d) * 16 + e, behind)
    | _, _, _, _ => behind.fail .invalidEscape
  | rest => (c.skip rest.length).fail .endInString

/-- Reads one byte that has to be there inside a text. -/
def readExact (expected : Char) (c : Cursor) : Except Fault Cursor :=
  match c.peek? with
  | none => c.fail .endInString
  | some b => if b = expected then .ok c.next else c.next.fail .endInHexEscape

/-- Reads a numbered character behind backslash and `u`: one code unit, or a pair of surrogates. -/
def readUnicode (c : Cursor) : Except Fault (List UInt8 × Cursor) := do
  let (n, c) ← readHex c
  if 0xDC00 ≤ n ∧ n ≤ 0xDFFF then c.fail .loneSurrogate
  else if n < 0xD800 ∨ 0xDBFF < n then .ok (Utf8.encodeChar (Char.ofNat n), c)
  else
    let c ← readExact '\\' c
    let c ← readExact 'u' c
    let (m, c) ← readHex c
    if m < 0xDC00 ∨ 0xDFFF < m then c.fail .loneSurrogate
    else .ok (Utf8.encodeChar (Char.ofNat ((n - 0xD800) * 0x400 + (m - 0xDC00) + 0x10000)), c)

/-- The character that a letter stands for behind a backslash. -/
def simpleEscape? (c : Char) : Option UInt8 :=
  match c with
  | '"' => some 0x22
  | '\\' => some 0x5C
  | '/' => some 0x2F
  | 'b' => some 0x08
  | 'f' => some 0x0C
  | 'n' => some 0x0A
  | 'r' => some 0x0D
  | 't' => some 0x09
  | _ => none

def readEscape (c : Cursor) : Except Fault (List UInt8 × Cursor) :=
  match c.peek? with
  | none => c.fail .endInString
  | some 'u' => readUnicode c.next
  | some e =>
    match simpleEscape? e with
    | some b => .ok ([b], c.next)
    | none => c.next.fail .invalidEscape

/-- Reads a text behind its quotation mark, the place of which is `start`. The bytes read so far are
in `acc`, the last one first; the fuel bounds their number. Bytes that are not UTF-8 are told at the
end of the text, at the place of the first of them. -/
def readTextLoop (start : Cursor) : Nat → List UInt8 → Cursor → Except Fault (String × Cursor)
  | 0, _, c => c.fail .endInString
  | fuel + 1, acc, c =>
    match c.rest with
    | [] => c.fail .endInString
    | b :: _ =>
      if b = 0x22 then
        match Utf8.decode? acc.reverse with
        | some s => .ok (s, c.next)
        | none => (start.skip (Utf8.wellFormedLength start.rest + 1)).fail .invalidCodePoint
      else if b = 0x5C then do
        let (bytes, c) ← readEscape c.next
        readTextLoop start fuel (bytes.reverse ++ acc) c
      else if b < 0x20 then c.next.fail .controlCharacter
      else readTextLoop start fuel (b :: acc) c.next

/-- Reads a text behind its quotation mark. -/
def readText (c : Cursor) : Except Fault (String × Cursor) :=
  readTextLoop c (c.rest.length + 1) [] c

/-! ## Skipping -/

/-- Skips what follows a backslash; a numbered character may be half of a pair. -/
def skipEscape (c : Cursor) : Except Fault Cursor :=
  match c.peek? with
  | none => c.fail .endInString
  | some 'u' => (readHex c.next).map (·.2)
  | some e => if (simpleEscape? e).isSome then .ok c.next else c.next.fail .invalidEscape

/-- Skips a text behind its quotation mark. -/
def skipTextLoop : Nat → Cursor → Except Fault Cursor
  | 0, c => c.fail .endInString
  | fuel + 1, c =>
    match c.rest with
    | [] => c.fail .endInString
    | b :: _ =>
      if b = 0x22 then .ok c.next
      else if b = 0x5C then do skipTextLoop fuel (← skipEscape c.next)
      else if b < 0x20 then c.fail .controlCharacter
      else skipTextLoop fuel c.next

/-- Skips a text behind its quotation mark, without a look at its characters. -/
def skipText (c : Cursor) : Except Fault Cursor :=
  skipTextLoop (c.rest.length + 1) c

end Chassis.Json
