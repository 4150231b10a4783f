import Chassis.Text.Utf8
import Chassis.Toml.Document

/-!
# Reading settings

The grammar of TOML 1.0. A document is a list of lines, each empty or with one statement, and an
optional comment. What is read is either a document or nothing: where and why a text is malformed is
not told.

Two limits keep the reader within bounds: brackets and braces lie at most 79 deep inside one
another, and a dotted key has at most 79 parts.
-/

set_option autoImplicit false

namespace Chassis.Toml

open Text

/-- Reads something at the front of a text. -/
abbrev Reader (α : Type) := List Char → Option (α × List Char)

/-! ## Blanks -/

def isGap (c : Char) : Bool := c == ' ' || c == '\t'

def skipGap (cs : List Char) : List Char := cs.dropWhile isGap

/-- A character that may stand in a comment or, quotation marks aside, in a text. -/
def isPlain (c : Char) : Bool := c == '\t' || (0x20 ≤ c.toNat && c.toNat != 0x7F)

/-- Reads the end of a line; the end of the document counts as one. -/
def lineEnd? : List Char → Option (List Char)
  | [] => some []
  | '\n' :: cs => some cs
  | '\r' :: '\n' :: cs => some cs
  | _ => none

/-- Reads blanks, a comment if there is one, and the end of the line. -/
def restOfLine? (cs : List Char) : Option (List Char) :=
  match skipGap cs with
  | '#' :: cs => lineEnd? (cs.dropWhile isPlain)
  | cs => lineEnd? cs

/-- Skips blanks, line ends and comments. The fuel bounds their number. -/
def skipLines : Nat → List Char → List Char
  | 0, cs => cs
  | fuel + 1, cs =>
    match skipGap cs with
    | '\n' :: cs => skipLines fuel cs
    | '\r' :: '\n' :: cs => skipLines fuel cs
    | '#' :: cs => skipLines fuel (cs.dropWhile isPlain)
    | cs => cs

/-! ## Texts -/

/-- The number that hexadecimal digits stand for. -/
def hexadecimal? (cs : List Char) : Option Nat :=
  cs.foldlM (fun n c => (Utf8.hexValue? c).map (n * 16 + ·)) 0

/-- Reads a character given by its number in hexadecimal digits. -/
def numbered? (width : Nat) (cs : List Char) : Option (Char × List Char) := do
  let ds := cs.take width
  let n ← hexadecimal? ds
  if ds.length = width ∧ n.isValidChar then some (Char.ofNat n, cs.drop width) else none

def escape? : Reader Char
  | [] => none
  | c :: cs =>
    match c with
    | 'b' => some ('\x08', cs)
    | 't' => some ('\t', cs)
    | 'n' => some ('\n', cs)
    | 'f' => some ('\x0c', cs)
    | 'r' => some ('\r', cs)
    | '"' => some ('"', cs)
    | '\\' => some ('\\', cs)
    | 'u' => numbered? 4 cs
    | 'U' => numbered? 8 cs
    | _ => none

/-- Puts a character in front of what is read next. -/
def consChar (c : Char) (r : Option (List Char × List Char)) : Option (List Char × List Char) :=
  r.map fun (s, rest) => (c :: s, rest)

/-- Reads a text on one line behind its quotation mark, with escapes. -/
def basicText? : Nat → Reader (List Char)
  | 0, _ => none
  | _, [] => none
  | fuel + 1, c :: cs =>
    if c = '"' then some ([], cs)
    else if c = '\\' then do
      let (e, cs) ← escape? cs
      consChar e (basicText? fuel cs)
    else if isPlain c then consChar c (basicText? fuel cs)
    else none

/-- Reads a text on one line behind its apostrophe, without escapes. -/
def literalText? (cs : List Char) : Option (List Char × List Char) :=
  let content := cs.takeWhile fun c => c != '\'' && isPlain c
  match cs.drop content.length with
  | '\'' :: rest => some (content, rest)
  | _ => none

/-- Three quotation marks or more end a text of several lines: up to two more belong to the text.
Fewer than three are part of the text. -/
def closing? (mark : Char) (cs : List Char) : Option (List Char × List Char) :=
  let count := (cs.takeWhile (· == mark)).length
  if 3 ≤ count then
    let extra := min count 5 - 3
    some (List.replicate extra mark, cs.drop (extra + 3))
  else none

/-- The text behind a backslash at the end of a line: blanks and line ends are left out. -/
def joinLines? (cs : List Char) : Option (List Char) := do
  let isSkipped (c : Char) := isGap c || c == '\n'
  match skipGap cs with
  | '\n' :: rest => some (skipLinesOnly rest.length isSkipped rest)
  | '\r' :: '\n' :: rest => some (skipLinesOnly rest.length isSkipped rest)
  | _ => none
where
  /-- Skips blanks and line ends of either sort. -/
  skipLinesOnly : Nat → (Char → Bool) → List Char → List Char
    | 0, _, cs => cs
    | fuel + 1, p, cs =>
      match cs with
      | '\r' :: '\n' :: rest => skipLinesOnly fuel p rest
      | c :: rest => if p c then skipLinesOnly fuel p rest else c :: rest
      | [] => []

/-- Reads a text of several lines behind its quotation marks; `escapes` tells whether a backslash is
special. A line end of either sort becomes a line feed. -/
def longText? (mark : Char) (escapes : Bool) : Nat → Reader (List Char)
  | 0, _ => none
  | fuel + 1, cs =>
    match closing? mark cs with
    | some r => some r
    | none =>
      match cs with
      | [] => none
      | '\n' :: rest => consChar '\n' (longText? mark escapes fuel rest)
      | '\r' :: '\n' :: rest => consChar '\n' (longText? mark escapes fuel rest)
      | c :: rest =>
        if c = '\\' ∧ escapes = true then
          match escape? rest with
          | some (e, rest) => consChar e (longText? mark escapes fuel rest)
          | none => do longText? mark escapes fuel (← joinLines? rest)
        else if isPlain c then consChar c (longText? mark escapes fuel rest)
        else none

/-- The text behind a line end right after the opening quotation marks. -/
def dropFirstLineEnd : List Char → List Char
  | '\n' :: cs => cs
  | '\r' :: '\n' :: cs => cs
  | cs => cs

def text? (cs : List Char) : Option (String × List Char) :=
  let r := match cs with
    | '"' :: '"' :: '"' :: rest => longText? '"' true (rest.length + 1) (dropFirstLineEnd rest)
    | '\'' :: '\'' :: '\'' :: rest => longText? '\'' false (rest.length + 1) (dropFirstLineEnd rest)
    | '"' :: rest => basicText? (rest.length + 1) rest
    | '\'' :: rest => literalText? rest
    | _ => none
  r.map fun (s, rest) => (String.ofList s, rest)

/-! ## Keys -/

/-- A character of a key without quotation marks. -/
def isBareKey (c : Char) : Bool := c.isAlphanum || c == '_' || c == '-'

def keyPart? (cs : List Char) : Option (String × List Char) :=
  match cs with
  | '"' :: rest => (basicText? (rest.length + 1) rest).map fun (s, r) => (String.ofList s, r)
  | '\'' :: rest => (literalText? rest).map fun (s, r) => (String.ofList s, r)
  | _ =>
    let part := cs.takeWhile isBareKey
    if part.isEmpty then none else some (String.ofList part, cs.drop part.length)

/-- Reads the parts of a dotted key; blanks may stand around the dots. -/
def keyParts? : Nat → Reader (List String)
  | 0, _ => none
  | fuel + 1, cs => do
    let (part, cs) ← keyPart? (skipGap cs)
    match skipGap cs with
    | '.' :: cs =>
      let (parts, cs) ← keyParts? fuel cs
      some (part :: parts, cs)
    | cs => some ([part], cs)

/-- Reads a key: the names before the last one, and the last one. -/
def key? (cs : List Char) : Option ((List String × String) × List Char) := do
  let (parts, cs) ← keyParts? 79 cs
  let last ← parts.getLast?
  some ((parts.dropLast, last), cs)

/-! ## Numbers, dates and words -/

/-- A character of a value that is not quoted. -/
def isWordChar (c : Char) : Bool :=
  c.isAlphanum || c == '_' || c == '+' || c == '-' || c == '.' || c == ':'

/-- Digits with single underscores between them, without the underscores. -/
def digitsOf? (isDigit : Char → Bool) : List Char → Option (List Char)
  | [] => none
  | [c] => if isDigit c then some [c] else none
  | c :: '_' :: rest => if isDigit c then (digitsOf? isDigit rest).map (c :: ·) else none
  | c :: rest => if isDigit c then (digitsOf? isDigit rest).map (c :: ·) else none

/-- A number in a base; every digit has a value below the base. -/
def inBase? (base : Nat) (cs : List Char) : Option Nat := do
  let isDigit (c : Char) : Bool := (Utf8.hexValue? c).any (· < base)
  let ds ← digitsOf? isDigit cs
  some (ds.foldl (fun n c => n * base + (Utf8.hexValue? c).getD 0) 0)

def splitSign : List Char → Bool × List Char
  | '+' :: cs => (false, cs)
  | '-' :: cs => (true, cs)
  | cs => (false, cs)

/-- The digits of a whole number in base ten; the first is not a zero unless it is the only one. -/
def wholeDigits? (cs : List Char) : Option (List Char) := do
  let ds ← digitsOf? Char.isDigit cs
  if cs.head? = some '0' ∧ 1 < cs.length then none else some ds

def integer? (cs : List Char) : Option Int := do
  let n : Int ← match cs with
    | '0' :: 'x' :: rest => (inBase? 16 rest).map fun n => (n : Int)
    | '0' :: 'o' :: rest => (inBase? 8 rest).map fun n => (n : Int)
    | '0' :: 'b' :: rest => (inBase? 2 rest).map fun n => (n : Int)
    | _ =>
      let (negative, rest) := splitSign cs
      (wholeDigits? rest >>= decimal?).map fun n => if negative then -n else n
  if -0x8000000000000000 ≤ n ∧ n < 0x8000000000000000 then some n else none

/-- Splits a text at the first character with a property; that character is left out. -/
def splitAtFirst (p : Char → Bool) (cs : List Char) : List Char × Option (List Char) :=
  let front := cs.takeWhile (fun c => !p c)
  match cs.drop front.length with
  | [] => (front, none)
  | _ :: rest => (front, some rest)

/-- The exponent of a number, zero if there is none. -/
def exponent? : Option (List Char) → Option Int
  | none => some 0
  | some cs => do
    let (negative, rest) := splitSign cs
    let n ← digitsOf? Char.isDigit rest >>= decimal?
    some (if negative then -n else n)

/-- A floating point number. One that is too large is refused, unless it is negative. -/
def floating? (cs : List Char) : Option Float := do
  let (negative, rest) := splitSign cs
  let signed (x : Float) := if negative then -x else x
  if rest = ['i', 'n', 'f'] then some (signed (1.0 / 0.0))
  else if rest = ['n', 'a', 'n'] then some (0.0 / 0.0)
  else
    let (mantissa, power) := splitAtFirst (fun c => c == 'e' || c == 'E') rest
    let (whole, fraction) := splitAtFirst (· == '.') mantissa
    if power.isNone ∧ fraction.isNone then none
    else
      let ws ← wholeDigits? whole
      let fs ← match fraction with
        | none => some []
        | some f => digitsOf? Char.isDigit f
      let digits ← decimal? (ws ++ fs)
      let x := signed (Decimal.nearest digits ((← exponent? power) - fs.length))
      if x == 1.0 / 0.0 then none else some x

/-- The value of a word: a truth value, a whole number, a floating point number, or a date. -/
def wordValue? (cs : List Char) : Option Scalar :=
  if cs = ['t', 'r', 'u', 'e'] then some (.boolean true)
  else if cs = ['f', 'a', 'l', 's', 'e'] then some (.boolean false)
  else
    match integer? cs with
    | some n => some (.integer n)
    | none =>
      match floating? cs with
      | some x => some (.floating x.toBits)
      | none => (Datetime.ofText? cs).map .datetime

/-- Reads a word. A date may be followed by a blank and a time. -/
def word? (cs : List Char) : Option (Scalar × List Char) :=
  let first := cs.takeWhile isWordChar
  let rest := cs.drop first.length
  let whole := (date? first).any (·.2.isEmpty)
  match rest with
  | ' ' :: d :: more =>
    if whole && d.isDigit then
      let second := (d :: more).takeWhile isWordChar
      (wordValue? (first ++ ' ' :: second)).map fun v => (v, (d :: more).drop second.length)
    else (wordValue? first).map fun v => (v, rest)
  | _ => (wordValue? first).map fun v => (v, rest)

/-! ## Values -/

/-- Reads the elements of a list behind its bracket. A comma may follow the last one. -/
def elements? (value : Reader Node) : Nat → Reader (List Node)
  | 0, _ => none
  | fuel + 1, cs =>
    match skipLines cs.length cs with
    | ']' :: rest => some ([], rest)
    | cs => do
      let (item, cs) ← value cs
      match skipLines cs.length cs with
      | ']' :: rest => some ([item], rest)
      | ',' :: rest =>
        let (items, rest) ← elements? value fuel rest
        some (item :: items, rest)
      | _ => none

def pair? (value : Reader Node) (cs : List Char) :
    Option (((List String × String) × Node) × List Char) := do
  let (key, cs) ← key? cs
  let cs ← char? '=' (skipGap cs)
  let (node, cs) ← value (skipGap cs)
  some ((key, node), cs)

/-- Reads the pairs of a table behind its brace, all on one line; no comma follows the last one. -/
def pairs? (value : Reader Node) : Nat → Reader (List ((List String × String) × Node))
  | 0, _ => none
  | fuel + 1, cs => do
    let (pair, cs) ← pair? value cs
    match skipGap cs with
    | '\x7d' :: rest => some ([pair], rest)
    | ',' :: rest =>
      let (pairs, rest) ← pairs? value fuel rest
      some (pair :: pairs, rest)
    | _ => none

/-- Reads a value with at most `depth` brackets and braces inside one another. -/
def value? : Nat → Reader Node
  | depth, cs =>
    match cs with
    | [] => none
    | '"' :: _ => (text? cs).map fun (s, rest) => (.scalar (.text s), rest)
    | '\'' :: _ => (text? cs).map fun (s, rest) => (.scalar (.text s), rest)
    | '[' :: rest =>
      match depth with
      | 0 => none
      | depth + 1 => (elements? (value? depth) (rest.length + 1) rest).map fun (items, rest) =>
          (.array items, rest)
    | '\x7b' :: rest =>
      match depth with
      | 0 => none
      | depth + 1 =>
        match skipGap rest with
        | '\x7d' :: rest => some (.table .braces [], rest)
        | rest => do
          let (pairs, rest) ← pairs? (value? depth) (rest.length + 1) rest
          some (← bracesTable pairs, rest)
    | _ => (word? cs).map fun (s, rest) => (.scalar s, rest)

/-! ## Documents -/

def statement? (cs : List Char) : Option (Statement × List Char) :=
  match cs with
  | '[' :: '[' :: rest => do
    let ((path, key), rest) ← key? rest
    let rest ← char? ']' (← char? ']' (skipGap rest))
    some (.openItem path key, rest)
  | '[' :: rest => do
    let ((path, key), rest) ← key? rest
    some (.openTable path key, ← char? ']' (skipGap rest))
  | _ => do
    let (((path, key), node), rest) ← pair? (value? 79) cs
    some (.assign path key node, rest)

def statements? : Nat → List Char → Option (List Statement)
  | 0, _ => none
  | fuel + 1, cs =>
    match skipLines cs.length cs with
    | [] => some []
    | cs => do
      let (statement, cs) ← statement? cs
      let rest ← statements? fuel (← restOfLine? cs)
      some (statement :: rest)

/-- The document with a text; a mark of the byte order in front of it is left out. -/
def Entries.ofText? (s : String) : Option Entries :=
  let cs := match s.toList with
    | '\ufeff' :: cs => cs
    | cs => cs
  statements? (cs.length + 1) cs >>= Entries.ofStatements

end Chassis.Toml
