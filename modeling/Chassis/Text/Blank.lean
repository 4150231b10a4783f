/-!
# White space

The characters with the Unicode property `White_Space`, and what trimming removes: a text is blank
when nothing is left of it.
-/

set_option autoImplicit false

namespace Chassis.Text

/-- A character with the property `White_Space`. -/
def isBlankChar (c : Char) : Bool :=
  let n := c.toNat
  (9 ≤ n && n ≤ 13) || n == 0x20 || n == 0x85 || n == 0xA0 || n == 0x1680 ||
    (0x2000 ≤ n && n ≤ 0x200A) || n == 0x2028 || n == 0x2029 || n == 0x202F || n == 0x205F ||
    n == 0x3000

/-- Nothing is left of the text once white space is trimmed. -/
def isBlank (s : String) : Bool :=
  s.toList.all isBlankChar

def trimEnd (s : String) : String :=
  String.ofList (s.toList.reverse.dropWhile isBlankChar).reverse

/-- The text without white space on either side. -/
def trim (s : String) : String :=
  String.ofList ((s.toList.dropWhile isBlankChar).reverse.dropWhile isBlankChar).reverse

/-- Core's white space is white space here. -/
theorem isBlankChar_of_isWhitespace (c : Char) (h : c.isWhitespace = true) :
    isBlankChar c = true := by
  simp only [Char.isWhitespace, Bool.or_eq_true, decide_eq_true_eq] at h
  rcases h with ((rfl | rfl) | rfl) | rfl <;> rfl

end Chassis.Text
