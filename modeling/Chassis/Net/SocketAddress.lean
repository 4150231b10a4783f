import Chassis.Text.Printable
import Chassis.Text.Quoted

/-!
# Socket addresses

An address to listen on, as text: `1.2.3.4:80`, or `[::1]:80` with an optional scope behind a
percent sign. Numbers of the first form have no leading zeros; a port may have them. Reading takes
the whole text or nothing; writing uses the shortest form, so the same address is always written the
same way.
-/

set_option autoImplicit false

namespace Chassis.Net

inductive SocketAddress
  | v4 (octets : List Nat) (port : Nat)
  | v6 (groups : List Nat) (scope : Nat) (port : Nat)
deriving DecidableEq, Repr

def SocketAddress.port : SocketAddress → Nat
  | v4 _ port => port
  | v6 _ _ port => port

/-! ## Reading -/

def isDigit (base : Nat) (c : Char) : Bool := (Text.Utf8.hexValue? c).any (· < base)

/-- The number that digits of a base are; none is zero. -/
def ofDigits (base : Nat) (ds : List Char) : Nat :=
  ds.foldl (fun n c => n * base + (Text.Utf8.hexValue? c).getD 0) 0

/-- Reads a number in a base: all digits that come next, at most `width` of them if that is given,
and not above `limit`. -/
def number? (base limit : Nat) (width : Option Nat) (leadingZeros : Bool) (cs : List Char) :
    Option (Nat × List Char) :=
  let ds := cs.takeWhile (isDigit base)
  let n := ofDigits base ds
  if ds.isEmpty || width.any (· < ds.length) then none
  else if !leadingZeros && ds.head? == some '0' && ds.length > 1 then none
  else if n ≤ limit then some (n, cs.drop ds.length) else none

def char? (c : Char) : List Char → Option (List Char)
  | [] => none
  | d :: rest => if d = c then some rest else none

/-- Reads the four numbers of an address of the first form. -/
def octets? (cs : List Char) : Option (List Nat × List Char) := do
  let octet := number? 10 255 (some 3) false
  let (a, cs) ← octet cs
  let (b, cs) ← octet (← char? '.' cs)
  let (c, cs) ← octet (← char? '.' cs)
  let (d, cs) ← octet (← char? '.' cs)
  some ([a, b, c, d], cs)

def port? (cs : List Char) : Option (Nat × List Char) := do
  number? 10 65535 none true (← char? ':' cs)

/-- The text behind a colon, or the text itself in front of the first group. -/
def separated? (first : Bool) (cs : List Char) : Option (List Char) :=
  if first then some cs else char? ':' cs

/-- Reads at most `limit` groups of an address of the second form, separated by colons. Four numbers
with dots stand for two groups and end the list; whether they were there is told. -/
def groups? : (limit : Nat) → (first : Bool) → List Char → (List Nat × Bool) × List Char
  | 0, _, cs => (([], false), cs)
  | limit + 1, first, cs =>
    let dotted := if limit = 0 then none else separated? first cs >>= octets?
    match dotted with
    | some ([a, b, c, d], rest) => (([a * 256 + b, c * 256 + d], true), rest)
    | _ =>
      match separated? first cs >>= number? 16 65535 (some 4) true with
      | none => (([], false), cs)
      | some (g, rest) =>
        let ((gs, isDotted), rest) := groups? limit false rest
        ((g :: gs, isDotted), rest)

/-- Reads the eight groups of an address of the second form; two colons stand for one zero group or
more. -/
def allGroups? (cs : List Char) : Option (List Nat × List Char) :=
  let ((head, isDotted), rest) := groups? 8 true cs
  if head.length = 8 then some (head, rest)
  else if isDotted then none
  else do
    let rest ← char? ':' (← char? ':' rest)
    let ((tail, _), rest) := groups? (7 - head.length) true rest
    some (head ++ List.replicate (8 - head.length - tail.length) 0 ++ tail, rest)

/-- Reads a scope behind its percent sign; none is zero. -/
def scope (cs : List Char) : Nat × List Char :=
  match char? '%' cs >>= number? 10 0xFFFFFFFF none true with
  | some r => r
  | none => (0, cs)

def address? (cs : List Char) : Option (SocketAddress × List Char) :=
  let first : Option (SocketAddress × List Char) := do
    let (octets, rest) ← octets? cs
    let (port, rest) ← port? rest
    some (.v4 octets port, rest)
  match first with
  | some r => some r
  | none => do
    let (groups, rest) ← allGroups? (← char? '[' cs)
    let (scope, rest) := scope rest
    let (port, rest) ← port? (← char? ']' rest)
    some (.v6 groups scope port, rest)

/-- The address that a whole text stands for. -/
def SocketAddress.ofText? (s : String) : Option SocketAddress :=
  match address? s.toList with
  | some (a, []) => some a
  | _ => none

/-! ## Writing -/

def dotted (octets : List Nat) : String :=
  ".".intercalate (octets.map toString)

def leadingZeros (groups : List Nat) : Nat := (groups.takeWhile (· == 0)).length

/-- The start and the length of the longest run of zeros, the first of several. `index` counts the
groups before the list. -/
def longestZeros : Nat → List Nat → Nat × Nat
  | _, [] => (0, 0)
  | index, g :: rest =>
    let here := leadingZeros (g :: rest)
    let later := longestZeros (index + 1) rest
    if later.2 ≤ here && here != 0 then (index, here) else later

/-- Groups in hexadecimal with colons between them. -/
def colonSeparated (groups : List Nat) : String :=
  ":".intercalate (groups.map fun g => String.ofList (Text.hexDigits g))

/-- Groups with two colons for the longest run of two zeros or more. -/
def compressed (groups : List Nat) : String :=
  let (start, length) := longestZeros 0 groups
  if length > 1 then
    colonSeparated (groups.take start) ++ "::" ++ colonSeparated (groups.drop (start + length))
  else colonSeparated groups

/-- The text of an address of the second form, which ends in the first form if it stands for one of
those. -/
def renderGroups (groups : List Nat) : String :=
  match groups with
  | [0, 0, 0, 0, 0, 65535, a, b] => "::ffff:" ++ dotted [a / 256, a % 256, b / 256, b % 256]
  | _ => compressed groups

def SocketAddress.render : SocketAddress → String
  | v4 octets port => dotted octets ++ s!":{port}"
  | v6 groups scope port =>
    let tail := if scope = 0 then "" else s!"%{scope}"
    "[" ++ renderGroups groups ++ tail ++ s!"]:{port}"

end Chassis.Net
