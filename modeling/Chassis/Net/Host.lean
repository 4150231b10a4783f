import Chassis.Net.Percent
import Chassis.Net.SocketAddress
import Chassis.Text.Split

/-!
# Hosts of addresses

The host of an address is a name, four numbers with dots, or eight groups in brackets. The numbers
may be written in three bases and with fewer dots, and whatever ends in a number is one of those or
nothing. A host is kept in the one form in which it is written out.

Names outside ASCII are written in ASCII by tables that are not part of this library. They are a
parameter here, `HostNames`.
-/

set_option autoImplicit false

namespace Chassis.Net

/-- How names are written in ASCII that need the tables of Unicode: those with a character outside
ASCII, and those with a label that was written by the tables before and has to be checked. -/
class HostNames where
  toAscii? : String → Option String

/-- Without tables a label that was written by them is believed, and nothing else can be written. -/
instance (priority := low) HostNames.withoutTables : HostNames where
  toAscii? name := if name.toList.all (·.toNat < 0x80) then some name.toLower else none

namespace Host

/-! ## Names -/

/-- Whether a character may not stand in a name. A double quote, a backtick and braces might, but no
call can be made to such a name. -/
def isForbidden (c : Char) : Bool :=
  c.toNat ≤ 0x20 || c.toNat == 0x7F ||
    ['"', '#', '%', '/', ':', '<', '>', '?', '@', '[', '\\', ']', '^', '`', '\x7b', '|',
      '\x7d'].contains c

/-- The name is in ASCII, and none of its labels was written by the tables of Unicode. -/
def isPlain (name : String) : Bool :=
  name.toList.all (·.toNat < 0x80) &&
    (Text.split '.' name.toLower.toList).all fun label => label.take 4 != "xn--".toList

/-- The name as it is written in ASCII. -/
def name? [HostNames] (name : String) : Option String :=
  if name.toList.any isForbidden then none
  else if isPlain name then some name.toLower
  else HostNames.toAscii? name

/-! ## Numbers with dots -/

def digits? (base : Nat) (ds : List Char) : Option Nat :=
  if ds.all (isDigit base) then some (ofDigits base ds) else none

/-- The number that a part is: in base sixteen behind `0x`, and in base eight behind another
zero. -/
def part? : List Char → Option Nat
  | [] => none
  | '0' :: 'x' :: ds => digits? 16 ds
  | '0' :: ds => digits? 8 ds
  | ds => digits? 10 ds

/-- What stands between the dots; a dot at the end does not count. -/
def parts (name : String) : List (List Char) :=
  let parts := Text.split '.' name.toList
  if parts.getLast? = some [] then parts.dropLast else parts

/-- The last part of a name is a number, or at least looks like one. -/
def endsInNumber (name : String) : Bool :=
  match (parts name).getLast? with
  | none => false
  | some last => !last.isEmpty && last.all (isDigit 10) || (part? last).isSome

/-- The bytes of a number, the highest first, if there are no more than so many. -/
def bytes? : (count : Nat) → Nat → Option (List Nat)
  | 0, n => if n = 0 then some [] else none
  | count + 1, n => (bytes? count (n / 256)).map (· ++ [n % 256])

/-- The four numbers of an address. The last part stands for all that the others leave. -/
def octets? (name : String) : Option (List Nat) := do
  let numbers ← (parts name).mapM part?
  let front := numbers.dropLast
  if 3 < front.length || front.any (255 < ·) then none
  else (bytes? (4 - front.length) (← numbers.getLast?)).map (front ++ ·)

/-! ## Hosts -/

/-- The host that characters stand for, as it is written out. -/
def ofChars? [HostNames] : List Char → Option String
  | [] => none
  | '[' :: cs =>
    match allGroups? cs with
    | some (groups, [']']) => some ("[" ++ compressed groups ++ "]")
    | _ => none
  | cs => do
    let name ← name? (← Percent.decodeText? (String.ofList cs))
    if name.isEmpty then none
    else if endsInNumber name then (octets? name).map dotted
    else some name

end Host

end Chassis.Net
