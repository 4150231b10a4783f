import Chassis.Text.Utf8

/-!
# Percent encoding

A byte in an address may be written as `%` and two hexadecimal digits. `decode` turns every such
group into its byte and leaves a `%` without two digits as it is; `encode` writes the bytes of a
text, those of some characters as groups.
-/

set_option autoImplicit false

namespace Chassis.Net.Percent

/-! ## Reading -/

/-- The value of a hexadecimal digit given as a byte. -/
def digit? (b : UInt8) : Option Nat :=
  Text.Utf8.hexValue? (Char.ofNat b.toNat)

def byte? (a b : UInt8) : Option UInt8 :=
  match digit? a, digit? b with
  | some high, some low => some (high * 16 + low).toUInt8
  | _, _ => none

def decode : List UInt8 → List UInt8
  | [] => []
  | [a] => [a]
  | [a, b] => [a, b]
  | a :: b :: c :: rest =>
    match if a = 0x25 then byte? b c else none with
    | some byte => byte :: decode rest
    | none => a :: decode (b :: c :: rest)

/-- The text of an address part, if its bytes are well formed. -/
def decodeText? (s : String) : Option String :=
  Text.Utf8.decode? (decode (Text.Utf8.encode s))

/-! ## Writing -/

/-- The upper-case hexadecimal digit of a number below sixteen. -/
def upperDigit (n : Nat) : Char :=
  if n < 10 then Char.ofNat (48 + n) else Char.ofNat (55 + n)

def group (b : UInt8) : List Char :=
  ['%', upperDigit (b.toNat / 16), upperDigit (b.toNat % 16)]

/-- A character, or the groups of its bytes. Only printable ASCII can stand for itself. -/
def encodeChar (isEscaped : Char → Bool) (c : Char) : List Char :=
  if c.toNat < 0x20 || 0x7E < c.toNat || isEscaped c then
    (Text.Utf8.encodeChar c).flatMap group
  else [c]

/-- Characters with some of them as groups. -/
def encode (isEscaped : Char → Bool) (cs : List Char) : List Char :=
  cs.flatMap (encodeChar isEscaped)

end Chassis.Net.Percent
