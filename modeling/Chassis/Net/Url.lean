import Chassis.Net.Host

/-!
# Addresses of resources

The address of a resource on an HTTP server, read as a browser reads one: spaces around it and line
breaks and tabs in it do not count, a backslash is a slash, segments of one or two dots are
resolved, and characters that may not stand in a part are written as percent groups.
-/

set_option autoImplicit false

namespace Chassis.Net

/-- Who calls, in written form. -/
structure UserInfo where
  name : String := ""
  password : Option String := none
deriving DecidableEq, Repr

/-- An address. The segments of the path, the query and the fragment are kept in written form. -/
structure Url where
  isSecure : Bool
  userInfo : UserInfo
  host : String
  port : Option Nat
  segments : List String
  query : Option String
  fragment : Option String
deriving DecidableEq, Repr

namespace Url

/-! ## Which characters are escaped -/

def isEscapedInFragment (c : Char) : Bool := [' ', '"', '<', '>', '`'].contains c

def isEscapedInPath (c : Char) : Bool :=
  isEscapedInFragment c || ['#', '?', '\x7b', '\x7d'].contains c

def isEscapedInQuery (c : Char) : Bool := [' ', '"', '#', '<', '>', '\''].contains c

def isEscapedInUserInfo (c : Char) : Bool :=
  isEscapedInPath c || ['/', ':', ';', '=', '@', '[', '\\', ']', '^', '|'].contains c

/-! ## Reading -/

/-- The characters that count: no tabs and line breaks, and neither spaces nor control characters
at the ends. -/
def relevant (cs : List Char) : List Char :=
  let isOuter (c : Char) := c.toNat ≤ 0x20
  let inner := ((cs.dropWhile isOuter).reverse.dropWhile isOuter).reverse
  inner.filter fun c => c != '\t' && c != '\n' && c != '\r'

/-- Drops a scheme and the slashes after it: whether the connection is secure, and the rest. -/
def dropScheme? (cs : List Char) : Option (Bool × List Char) :=
  let scheme := String.ofList (cs.takeWhile (· != ':')) |>.toLower
  let rest := (cs.dropWhile (· != ':')).drop 1 |>.dropWhile fun c => c == '/' || c == '\\'
  if !cs.contains ':' then none
  else if scheme == "http" then some (false, rest)
  else if scheme == "https" then some (true, rest)
  else none

/-- The number of a port: digits only, and at most 65535. -/
def port? (cs : List Char) : Option Nat :=
  let n := ofDigits 10 cs
  if cs.all (isDigit 10) && n < 65536 then some n else none

/-- The name and the password, with a colon between them. An empty password is none. -/
def readUserInfo (cs : List Char) : UserInfo :=
  let written (cs : List Char) := String.ofList (Percent.encode isEscapedInUserInfo cs)
  let password := (cs.dropWhile (· != ':')).drop 1
  { name := written (cs.takeWhile (· != ':'))
    password := if password.isEmpty then none else some (written password) }

/-- What stands before the last at sign, and what stands behind it. -/
def splitUserInfo (cs : List Char) : List Char × List Char :=
  let behind := (cs.reverse.takeWhile (· != '@')).reverse
  (cs.take (cs.length - behind.length - 1), behind)

/-- The host, and what stands from the first colon outside of brackets on. -/
def splitHost (inBrackets : Bool) : List Char → List Char × List Char
  | [] => ([], [])
  | c :: cs =>
    if c == ':' && !inBrackets then ([], c :: cs)
    else
      let (host, rest) := splitHost (c == '[' || inBrackets && c != ']') cs
      (c :: host, rest)

/-- Who calls, the host and the port; the port that goes with the scheme is left out. -/
def authority? [HostNames] (isSecure : Bool) (cs : List Char) :
    Option (UserInfo × String × Option Nat) := do
  let (before, behind) := splitUserInfo cs
  let (host, rest) := splitHost false behind
  let host ← Host.ofChars? host
  let port ← match rest.drop 1 with
    | [] => some none
    | digits => (port? digits).map fun p =>
        if p = (if isSecure then 443 else 80) then none else some p
  some (readUserInfo before, host, port)

/-- A segment that stands for the place it is in, or for the one above it. -/
inductive Dots
  | one
  | two
deriving DecidableEq, Repr

/-- The dots that a segment is, each as itself or as a percent group. -/
def dots? (segment : List Char) : Option Dots :=
  match (String.ofList segment).toLower with
  | "." | "%2e" => some .one
  | ".." | ".%2e" | "%2e." | "%2e%2e" => some .two
  | _ => none

/-- The segments of a path with dots resolved, `above` being those before, the last one first. Dots
at the end leave an empty segment. -/
def resolve (above : List String) : List (List Char) → List String
  | [] => above.reverse
  | segment :: rest =>
    let above := match dots? segment with
      | none => String.ofList (Percent.encode isEscapedInPath segment) :: above
      | some .one => if rest.isEmpty then "" :: above else above
      | some .two => if rest.isEmpty then "" :: above.drop 1 else above.drop 1
    resolve above rest

/-- The segments of a path, which starts with a slash unless it is empty. -/
def pathSegments (cs : List Char) : List String :=
  let slashes := cs.map fun c => if c == '\\' then '/' else c
  resolve [] (Text.split '/' (slashes.drop 1))

def after? (mark : Char) (isEscaped : Char → Bool) (cs : List Char) : Option String :=
  if cs.contains mark then
    some (String.ofList (Percent.encode isEscaped ((cs.dropWhile (· != mark)).drop 1)))
  else none

def ofText? [HostNames] (s : String) : Option Url := do
  let (isSecure, rest) ← dropScheme? (relevant s.toList)
  let beforeFragment := rest.takeWhile (· != '#')
  let beforeQuery := beforeFragment.takeWhile (· != '?')
  let isAuthority (c : Char) := c != '/' && c != '\\'
  let (userInfo, host, port) ← authority? isSecure (beforeQuery.takeWhile isAuthority)
  some
    { isSecure, userInfo, host, port
      segments := pathSegments (beforeQuery.dropWhile isAuthority)
      query := after? '?' isEscapedInQuery beforeFragment
      fragment := after? '#' isEscapedInFragment rest }

/-! ## Writing -/

def marked (mark : String) (part : Option String) : String :=
  match part with
  | some s => mark ++ s
  | none => ""

/-- The name and the password that a call tells in a header, if the name is a text and there is
anything to tell. They are not shown in the address then. -/
def credentials? (u : UserInfo) : Option (String × Option String) :=
  match Percent.decodeText? u.name, u.password.bind Percent.decodeText? with
  | none, _ => none
  | some "", none => none
  | some name, password => some (name, password)

def shownUserInfo (u : UserInfo) : String :=
  if (credentials? u).isSome || u == {} then "" else u.name ++ marked ":" u.password ++ "@"

def path (u : Url) : String :=
  String.join (u.segments.map ("/" ++ ·))

def render (u : Url) : String :=
  (if u.isSecure then "https://" else "http://") ++ shownUserInfo u.userInfo ++ u.host ++
    marked ":" (u.port.map toString) ++ u.path ++ marked "?" u.query ++ marked "#" u.fragment

end Url

end Chassis.Net
