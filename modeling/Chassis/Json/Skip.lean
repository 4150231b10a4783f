import Chassis.Json.Number
import Chassis.Json.Text

/-!
# Values nobody asked for

`skipValue` passes over a field that the reader does not know: it keeps the open brackets in a list,
looks at no number or text closely and has no limit of depth. Beside it stand the steps between the
parts of a list or an object that is read.
-/

set_option autoImplicit false

namespace Chassis.Json

inductive Frame
  | list
  | object
deriving DecidableEq, Repr

def Frame.endReason : Frame → Reason
  | list => .endInList
  | object => .endInObject

/-- Neither a comma nor the closing bracket follows a value. -/
def Frame.commaReason : Frame → Reason
  | list => .expectedListCommaOrEnd
  | object => .expectedObjectCommaOrEnd

def Frame.close : Frame → Char
  | list => ']'
  | object => '\x7d'

/-- The cursor behind white space and a colon. -/
def readColon (c : Cursor) : Except Fault Cursor :=
  let c := c.skipSpace
  match c.peek? with
  | some ':' => .ok c.next
  | some _ => c.failNext .expectedColon
  | none => c.failNext .endInObject

/-! ## Skipping -/

/-- Skips a value without parts, or opens a bracket. -/
def skipStart (c : Cursor) : Except Fault (Option Frame × Cursor) :=
  let c := c.skipSpace
  let scalar (r : Except Fault Cursor) := r.map fun c => ((none : Option Frame), c)
  match c.peek? with
  | none => c.failNext .endInValue
  | some 'n' => scalar (c.next.readWord ['u', 'l', 'l'])
  | some 't' => scalar (c.next.readWord ['r', 'u', 'e'])
  | some 'f' => scalar (c.next.readWord ['a', 'l', 's', 'e'])
  | some '-' => scalar (skipNumber c.next)
  | some '"' => scalar (skipText c.next)
  | some '[' => .ok (some .list, c.next)
  | some '\x7b' => .ok (some .object, c.next)
  | some d => if d.isDigit then scalar (skipNumber c) else c.failNext .expectedValue

/-- Closes brackets, the innermost first, up to the place where the next value starts. `afterValue`
tells whether a value was read since the innermost bracket was opened. -/
def closeFrames : List Frame → Bool → Cursor → Except Fault (List Frame × Cursor)
  | [], _, c => .ok ([], c)
  | frame :: frames, afterValue, c =>
    let c := c.skipSpace
    match c.peek? with
    | none => c.failNext frame.endReason
    | some b =>
      if b = ',' ∧ afterValue then .ok (frame :: frames, c.next)
      else if b = frame.close then closeFrames frames true c.next
      else if afterValue then c.failNext frame.commaReason
      else .ok (frame :: frames, c)

def skipKey (c : Cursor) : Except Fault Cursor :=
  let c := c.skipSpace
  match c.peek? with
  | none => c.failNext .endInObject
  | some '"' => do readColon (← skipText c.next)
  | some _ => c.failNext .keyNotText

/-- Skips a value inside open brackets and everything up to the last of them. -/
def skipLoop : Nat → List Frame → Cursor → Except Fault Cursor
  | 0, _, c => c.fail .endInValue
  | fuel + 1, frames, c => do
    let (opened, c) ← skipStart c
    let (frames, c) ← closeFrames (opened.toList ++ frames) opened.isNone c
    match frames with
    | [] => .ok c
    | .list :: _ => skipLoop fuel frames c
    | .object :: _ => skipLoop fuel frames (← skipKey c)

def skipValue (c : Cursor) : Except Fault Cursor :=
  skipLoop (c.rest.length + 1) [] c

/-! ## Reading around values -/

/-- Goes to the next element of a list: true when there is one. `first` tells that none was read. -/
def nextElement (first : Bool) (c : Cursor) : Except Fault (Bool × Cursor) :=
  let c := c.skipSpace
  match c.peek? with
  | none => c.failNext .endInList
  | some ']' => .ok (false, c)
  | some b =>
    if first then .ok (true, c)
    else if b = ',' then
      let c := c.next.skipSpace
      match c.peek? with
      | some ']' => c.failNext .trailingComma
      | some _ => .ok (true, c)
      | none => c.failNext .endInValue
    else c.failNext .expectedListCommaOrEnd

/-- Goes to the next key of an object: true when there is one, with the cursor at its quotation
mark. -/
def nextKey (first : Bool) (c : Cursor) : Except Fault (Bool × Cursor) :=
  let c := c.skipSpace
  match c.peek? with
  | none => c.failNext .endInObject
  | some '\x7d' => .ok (false, c)
  | some b =>
    if first then if b = '"' then .ok (true, c) else c.failNext .keyNotText
    else if b = ',' then
      let c := c.next.skipSpace
      match c.peek? with
      | some '"' => .ok (true, c)
      | some '\x7d' => c.failNext .trailingComma
      | some _ => c.failNext .keyNotText
      | none => c.failNext .endInValue
    else c.failNext .expectedObjectCommaOrEnd

def closeList (c : Cursor) : Except Fault Cursor :=
  let c := c.skipSpace
  match c.peek? with
  | some ']' => .ok c.next
  | some ',' =>
    let c := c.next.skipSpace
    match c.peek? with
    | some ']' => c.failNext .trailingComma
    | _ => c.failNext .trailingCharacters
  | some _ => c.failNext .trailingCharacters
  | none => c.failNext .endInList

/-- The cursor behind the end of an object. -/
def closeObject (c : Cursor) : Except Fault Cursor :=
  let c := c.skipSpace
  match c.peek? with
  | some '\x7d' => .ok c.next
  | some ',' => c.failNext .trailingComma
  | some _ => c.failNext .trailingCharacters
  | none => c.failNext .endInObject

/-- Where a fault of a whole list is placed: behind its end, as far as it can be read. -/
def placeAfterList (c : Cursor) : Cursor :=
  let c := c.skipSpace
  match c.peek? with
  | some ']' => c.next
  | some ',' => c.next.skipSpace
  | _ => c

/-- Where a fault of a whole object is placed: behind its end, as far as it can be read. -/
def placeAfterObject (c : Cursor) : Cursor :=
  let c := c.skipSpace
  match c.peek? with
  | some '\x7d' => c.next
  | _ => c

def readEnd (c : Cursor) : Except Fault Unit :=
  let c := c.skipSpace
  if c.rest.isEmpty then .ok () else c.failNext .trailingCharacters

end Chassis.Json
