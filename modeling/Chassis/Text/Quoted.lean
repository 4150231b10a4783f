import Chassis.Text.Printable
import Chassis.Text.Utf8

/-!
# Quoted texts

Messages show a text between quotation marks so that its ends and every character of it can be
told. `quote` writes quotation marks and backslashes with a backslash before them, the common
control characters by their letter, and any other character that cannot be shown, or that would
attach to its neighbour, by its code point in braces.
-/

set_option autoImplicit false

namespace Chassis.Text

/-- Lower-case hexadecimal digits of a number, without leading zeros, in front of `acc`. The fuel
bounds the number of digits. -/
def hexDigitsAux : Nat → Nat → List Char → List Char
  | 0, _, acc => acc
  | fuel + 1, n, acc =>
    let acc := Utf8.hexDigit (n % 16) :: acc
    if n / 16 = 0 then acc else hexDigitsAux fuel (n / 16) acc

/-- Lower-case hexadecimal digits of a code point, without leading zeros. -/
def hexDigits (n : Nat) : List Char :=
  hexDigitsAux 16 n []

/-- The written form of one character between quotation marks. -/
def quoteChar (c : Char) : List Char :=
  if c = '"' then ['\\', '"']
  else if c = '\\' then ['\\', '\\']
  else if c = '\n' then ['\\', 'n']
  else if c = '\r' then ['\\', 'r']
  else if c = '\t' then ['\\', 't']
  else if c = '\x00' then ['\\', '0']
  else if isExtending c || !isPrintable c then
    '\\' :: 'u' :: '\x7b' :: (hexDigits c.toNat ++ ['\x7d'])
  else [c]

def quote (s : String) : String :=
  String.ofList ('"' :: (s.toList.flatMap quoteChar ++ ['"']))

end Chassis.Text
