/-!
# UTF-8 over lists of bytes

Texts cross the wire as bytes. `encode` writes a text, `decode?` reads one back and refuses any
byte that belongs to no character, and `decodeLossy` puts U+FFFD for each such run instead.

Both readers rest on one machine that looks at a single byte at a time. `step` says what a byte
completes: nothing, a character, or a run of bytes that can never become one. A byte that breaks a
character off is looked at again as the first byte of the next one, so a run is the longest prefix
of a well-formed character and never swallows the byte after it.
-/

set_option autoImplicit false

namespace Chassis.Text.Utf8

/-! ## Writing -/

def encodeChar (c : Char) : List UInt8 :=
  let n := c.toNat
  if n < 0x80 then [n.toUInt8]
  else if n < 0x800 then [(0xC0 + n / 0x40).toUInt8, (0x80 + n % 0x40).toUInt8]
  else if n < 0x10000 then
    [(0xE0 + n / 0x1000).toUInt8, (0x80 + n / 0x40 % 0x40).toUInt8, (0x80 + n % 0x40).toUInt8]
  else
    [(0xF0 + n / 0x40000).toUInt8, (0x80 + n / 0x1000 % 0x40).toUInt8,
      (0x80 + n / 0x40 % 0x40).toUInt8, (0x80 + n % 0x40).toUInt8]

def encodeChars (cs : List Char) : List UInt8 :=
  cs.flatMap encodeChar

def encode (s : String) : List UInt8 :=
  encodeChars s.toList

/-! ## Reading -/

/-- A character of which some bytes are still owed: how many, which bytes may come next, and the
number read so far. -/
structure Pending where
  owed : Nat
  low : Nat
  high : Nat
  value : Nat
deriving DecidableEq, Repr

/-- What the machine holds between bytes: nothing, or an unfinished character. -/
abbrev State := Option Pending

/-- The first byte of a character: what it completes and what it leaves open. -/
def first (b : Nat) : List (Option Char) × State :=
  if b < 0x80 then ([some (Char.ofNat b)], none)
  else if b < 0xC2 then ([none], none)
  else if b < 0xE0 then ([], some ⟨1, 0x80, 0xBF, b - 0xC0⟩)
  else if b = 0xE0 then ([], some ⟨2, 0xA0, 0xBF, 0⟩)
  else if b = 0xED then ([], some ⟨2, 0x80, 0x9F, 0xD⟩)
  else if b < 0xF0 then ([], some ⟨2, 0x80, 0xBF, b - 0xE0⟩)
  else if b = 0xF0 then ([], some ⟨3, 0x90, 0xBF, 0⟩)
  else if b < 0xF4 then ([], some ⟨3, 0x80, 0xBF, b - 0xF0⟩)
  else if b = 0xF4 then ([], some ⟨3, 0x80, 0x8F, 4⟩)
  else ([none], none)

/-- One byte: the characters (`some`) and ill-formed runs (`none`) that it completes, and the state
after it. -/
def step (state : State) (b : Nat) : List (Option Char) × State :=
  match state with
  | none => first b
  | some p =>
    if p.low ≤ b ∧ b ≤ p.high then
      let value := p.value * 0x40 + (b - 0x80)
      if p.owed ≤ 1 then ([some (Char.ofNat value)], none)
      else ([], some ⟨p.owed - 1, 0x80, 0xBF, value⟩)
    else
      let (out, next) := first b
      (none :: out, next)

/-- The characters of a byte string from a state on, `none` for each ill-formed run. -/
def units : State → List UInt8 → List (Option Char)
  | none, [] => []
  | some _, [] => [none]
  | state, b :: bs =>
    let (out, next) := step state b.toNat
    out ++ units next bs

/-- All values of a list of options, or nothing if one is missing. -/
def allSome {α : Type} : List (Option α) → Option (List α)
  | [] => some []
  | none :: _ => none
  | some a :: r => (allSome r).map (a :: ·)

/-- The characters of a well-formed byte string. -/
def decodeChars? (bs : List UInt8) : Option (List Char) :=
  allSome (units none bs)

def decode? (bs : List UInt8) : Option String :=
  (decodeChars? bs).map String.ofList

/-- The text of any byte string, U+FFFD standing for each ill-formed run. -/
def decodeLossy (bs : List UInt8) : String :=
  String.ofList ((units none bs).map (·.getD '\ufffd'))

/-- How many bytes come before the first ill-formed run. `done` bytes make up whole characters, and
`begun` more belong to the character that is not finished. -/
def wellFormedFrom : State → (done begun : Nat) → List UInt8 → Nat
  | _, done, _, [] => done
  | state, done, begun, b :: bs =>
    let (out, next) := step state b.toNat
    if out.any Option.isNone then done
    else if out.isEmpty then wellFormedFrom next done (begun + 1) bs
    else wellFormedFrom next (done + begun + 1) 0 bs

/-- How many bytes come before the first ill-formed run. -/
def wellFormedLength (bs : List UInt8) : Nat :=
  wellFormedFrom none 0 0 bs

/-! ## Hexadecimal digits of bytes -/

/-- The lower-case hexadecimal digit of a number below sixteen. -/
def hexDigit (n : Nat) : Char :=
  if n < 10 then Char.ofNat (48 + n) else Char.ofNat (87 + n)

/-- The value of a hexadecimal digit of either case. -/
def hexValue? (c : Char) : Option Nat :=
  if '0' ≤ c ∧ c ≤ '9' then some (c.toNat - 48)
  else if 'a' ≤ c ∧ c ≤ 'f' then some (c.toNat - 87)
  else if 'A' ≤ c ∧ c ≤ 'F' then some (c.toNat - 55)
  else none

end Chassis.Text.Utf8
