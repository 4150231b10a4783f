/-!
# Media types

The type of a body, `application/vnd.api+json; charset=utf-8`: a type, a subtype and a suffix behind
the last plus sign, in any case, and parameters, which have to be well formed but do not count.
-/

set_option autoImplicit false

namespace Chassis.Http

structure MediaType where
  type : String
  subtype : String
  suffix : Option String
deriving DecidableEq, Repr

namespace MediaType

def isTokenChar (c : Char) : Bool :=
  c.isAlphanum ||
    ['!', '#', '$', '%', '&', '\'', '*', '+', '-', '.', '^', '_', '`', '|', '~'].contains c

/-! ## Parameters -/

/-- What comes next within the parameters. `started` tells whether the name or the value has a
character. -/
inductive Place
  | name (started : Bool)
  | value (started : Bool)
  | quotedStart
  | quoted
  | afterQuoted
deriving DecidableEq, Repr

/-- A character that may stand between quotes. -/
def isQuotedChar (c : Char) : Bool := 0x20 ≤ c.toNat && c.toNat != 0x7F

/-- The place after a character, if it may stand there. The first character after a quote is taken
as it is, a quote included. -/
def Place.next? (p : Place) (c : Char) : Option Place :=
  match p with
  | .name false => if c = ' ' then some p else if isTokenChar c then some (.name true) else none
  | .name true =>
    if isTokenChar c then some p else if c = '=' then some (.value false) else none
  | .value false =>
    if c = '"' then some .quotedStart else if isTokenChar c then some (.value true) else none
  | .value true =>
    if isTokenChar c then some p else if c = ';' then some (.name false) else none
  | .quotedStart => if isQuotedChar c then some .quoted else none
  | .quoted => if c = '"' then some .afterQuoted else if isQuotedChar c then some p else none
  | .afterQuoted => if c = ';' then some (.name false) else if c = ' ' then some p else none

def Place.isEnd : Place → Bool
  | .name started => !started
  | .value _ => true
  | .afterQuoted => true
  | .quotedStart | .quoted => false

/-- The parameters are well formed from a place on. -/
def parametersOk (p : Place) : List Char → Bool
  | [] => p.isEnd
  | c :: cs =>
    match p.next? c with
    | some p => parametersOk p cs
    | none => false

/-! ## Reading -/

/-- The subtype and the suffix: the suffix stands behind the last plus sign that is not the first
character. -/
def splitSuffix (cs : List Char) : List Char × Option (List Char) :=
  let tail := cs.drop 1
  if tail.contains '+' then
    let suffix := (tail.reverse.takeWhile (· != '+')).reverse
    (cs.take (cs.length - suffix.length - 1), some suffix)
  else (cs, none)

def lower (cs : List Char) : String := (String.ofList cs).toLower

def ofText? (s : String) : Option MediaType :=
  let cs := s.toList
  let type := cs.takeWhile (· != '/')
  let rest := (cs.drop type.length).drop 1
  let subtype := rest.takeWhile (· != ';')
  let parameters := rest.drop subtype.length
  let isName (cs : List Char) := cs.all isTokenChar
  let parametersMayFollow := !subtype.isEmpty && parametersOk (.name false) (parameters.drop 1)
  if cs.length = type.length || type.isEmpty || !isName type || !isName subtype then none
  else if !parameters.isEmpty && !parametersMayFollow then none
  else
    let (subtype, suffix) := splitSuffix subtype
    some ⟨lower type, lower subtype, suffix.map lower⟩

def isJson (m : MediaType) : Bool :=
  m.type == "application" && (m.subtype == "json" || m.suffix == some "json")

end MediaType

end Chassis.Http
