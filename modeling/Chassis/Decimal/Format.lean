import Chassis.Decimal.Shortest

/-!
# The text of a floating point number

Three places show floating point numbers, and each has a style of its own: settings shown to an
operator, JSON, and messages about settings of the wrong type. The digits are always the shortest
that read back; a `Style` says for which sizes they are written positionally.
-/

set_option autoImplicit false

namespace Chassis.Decimal

/-- The range of sizes written positionally. The size of a number is the place of its decimal point
counted from its first digit: 1 for 5.0, 0 for 0.5, -3 for 0.0001. No bound means all sizes.
`plusSign` puts a sign in front of a positive exponent. -/
structure Style where
  positionalFrom : Option Int
  positionalTo : Option Int
  plusSign : Bool
deriving DecidableEq, Repr

/-- Settings: positional from 0.0001 up to 10^16. -/
def Style.setting : Style := ⟨some (-3), some 16, false⟩

/-- JSON: positional from 0.00001 up to 10^16. -/
def Style.json : Style := ⟨some (-4), some 16, true⟩

def Style.message : Style := ⟨none, none, false⟩

def Style.isPositional (s : Style) (size : Int) : Bool :=
  s.positionalFrom.all (· ≤ size) && s.positionalTo.all (size ≤ ·)

/-- Digits with a point after the first `size` of them, filled with zeros and with at least one
digit on both sides. -/
def positional (ds : List Char) (size : Int) : List Char :=
  if size ≤ 0 then '0' :: '.' :: (List.replicate (-size).toNat '0' ++ ds)
  else
    let n := size.toNat
    if ds.length ≤ n then ds ++ List.replicate (n - ds.length) '0' ++ ['.', '0']
    else ds.take n ++ '.' :: ds.drop n

/-- Digits with a point after the first, if there are more, and the exponent. -/
def scientific (plusSign : Bool) (ds : List Char) (exponent : Int) : List Char :=
  let sign := if plusSign && 0 ≤ exponent then ['+'] else []
  let tail := 'e' :: (sign ++ (toString exponent).toList)
  match ds with
  | [] => tail
  | [d] => d :: tail
  | d :: rest => d :: '.' :: (rest ++ tail)

def Digits.render (d : Digits) (s : Style) : List Char :=
  let ds := (toString d.digits).toList
  let size := (ds.length : Int) + d.exponent
  if s.isPositional size then positional ds size else scientific s.plusSign ds (size - 1)

/-- The text of a 64-bit pattern. The sign of zero is shown, that of a NaN is not. -/
def renderBits (s : Style) (bits : Nat) : String :=
  let (negative, magnitude) := classify bits
  let signed (cs : List Char) : String := String.ofList (if negative then '-' :: cs else cs)
  match magnitude with
  | .nan => "NaN"
  | .infinite => signed ['i', 'n', 'f']
  | .zero => signed ['0', '.', '0']
  | .finite b => signed (b.shortest.render s)

def render (s : Style) (x : Float) : String :=
  renderBits s x.toBits.toNat

/-- The floating point number nearest to `digits * 10 ^ exponent`. Sizes that lie far outside the
range of floating point numbers are settled without computing the power. -/
def nearest (digits : Nat) (exponent : Int) : Float :=
  if digits = 0 then 0.0
  else
    let size := ((toString digits).length : Int) + exponent
    if size > 320 then 1.0 / 0.0
    else if size < -400 then 0.0
    else match exponent with
      | .ofNat n => Float.ofScientific (digits * Nat.pow 10 n) false 0
      | .negSucc n => Float.ofScientific digits true (n + 1)

end Chassis.Decimal
