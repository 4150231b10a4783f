import Chassis.Proofs.Text.Utf8
import Chassis.Text.Quoted

/-!
# Where a quoted text ends

> **a quoted text can be told from whatever follows it** (`selfDelimiting_quote`).

Two quoted texts that are different stay different behind the same words and in front of any others.
That is more than injectivity, and it is what a message with several quoted fields needs: the first
field is known without looking at the second. `SelfDelimiting` says it of a written form, and the
lemmas beside it say how it goes on from parts to a whole.

Of a single character it is shown by a reader, `readQuotedChar`, which gets the character back from
its written form and leaves all that follows. The forms overlap in their first characters alone
(`\` begins an escape, and an escape by number begins like one by letter), so the reader looks at
two of them. A quotation mark begins none, which is how the text ends at the first one.
-/

set_option autoImplicit false

namespace Chassis.Text

/-! ## Written forms that show their end -/

/-- What is written can be told from whatever follows it. -/
def SelfDelimiting {α : Type} (write : α → List Char) : Prop :=
  ∀ (a b : α) (x y : List Char), write a ++ x = write b ++ y → a = b ∧ x = y

namespace SelfDelimiting

variable {α : Type} {write : α → List Char}

/-- A reader that leaves all that follows gets each value back. -/
theorem of_reader {read : List Char → Option (α × List Char)}
    (h : ∀ a x, read (write a ++ x) = some (a, x)) : SelfDelimiting write := by
  intro a b x y hab
  have hread : some (a, x) = some (b, y) := by rw [← h a x, hab, h b y]
  exact Prod.mk.inj (Option.some.inj hread)

theorem injective (h : SelfDelimiting write) {a b : α} (hab : write a = write b) : a = b := by
  have hself : write a ++ [] = write b ++ [] := by rw [hab]
  exact (h a b [] [] hself).1

/-- Any number of values up to a stop that begins no value. -/
theorem flatMap_stop (h : SelfDelimiting write) {stop : List Char}
    (hstop : ∀ a x y, write a ++ x ≠ stop ++ y) :
    SelfDelimiting fun as : List α => as.flatMap write ++ stop := by
  intro as
  induction as with
  | nil =>
    intro bs x y heq
    cases bs with
    | nil => exact ⟨rfl, List.append_cancel_left heq⟩
    | cons b bs =>
      simp only [List.flatMap_nil, List.nil_append, List.flatMap_cons, List.append_assoc] at heq
      exact absurd heq.symm (hstop b _ x)
  | cons a as ih =>
    intro bs x y heq
    cases bs with
    | nil =>
      simp only [List.flatMap_nil, List.nil_append, List.flatMap_cons, List.append_assoc] at heq
      exact absurd heq (hstop a _ y)
    | cons b bs =>
      simp only [List.flatMap_cons, List.append_assoc] at heq
      obtain ⟨rfl, hrest⟩ := h a b _ _ heq
      simp only [← List.append_assoc] at hrest
      obtain ⟨rfl, rfl⟩ := ih bs x y hrest
      exact ⟨rfl, rfl⟩

/-- Any number of values up to the end of the text, where each is written by something. -/
theorem flatMap_injective (h : SelfDelimiting write) (hne : ∀ a, write a ≠ []) :
    ∀ {as bs : List α}, as.flatMap write = bs.flatMap write → as = bs
  | [], [], _ => rfl
  | [], b :: bs, heq => by
    rw [List.flatMap_nil, List.flatMap_cons] at heq
    exact absurd (List.append_eq_nil_iff.1 heq.symm).1 (hne b)
  | a :: as, [], heq => by
    rw [List.flatMap_nil, List.flatMap_cons] at heq
    exact absurd (List.append_eq_nil_iff.1 heq).1 (hne a)
  | a :: as, b :: bs, heq => by
    rw [List.flatMap_cons, List.flatMap_cons] at heq
    obtain ⟨rfl, hrest⟩ := h a b _ _ heq
    rw [flatMap_injective h hne hrest]

end SelfDelimiting

/-! ## Numbers in hexadecimal -/

/-- Reads hexadecimal digits up to a closing brace. `n` is the number read so far. -/
def readHexDigits : Nat → List Char → Option (Nat × List Char)
  | _, [] => none
  | n, c :: rest =>
    if c = '\x7d' then some (n, rest)
    else match Utf8.hexValue? c with
      | none => none
      | some d => readHexDigits (n * 16 + d) rest

theorem readHexDigits_hexDigit (n : Nat) {d : Nat} (hd : d < 16) (rest : List Char) :
    readHexDigits n (Utf8.hexDigit d :: rest) = readHexDigits (n * 16 + d) rest := by
  have hvalue := Utf8.hexValue?_hexDigit d hd
  have hbrace : Utf8.hexDigit d ≠ '\x7d' := by
    intro heq
    rw [heq] at hvalue
    cases hvalue
  simp only [readHexDigits, if_neg hbrace, hvalue]

/-- The digits in front of `acc` bring the number to where `acc` goes on. -/
theorem readHexDigits_hexDigitsAux (fuel : Nat) :
    ∀ (n : Nat) (acc rest : List Char), n < Nat.pow 16 fuel →
      readHexDigits 0 (hexDigitsAux fuel n acc ++ rest) = readHexDigits n (acc ++ rest) := by
  induction fuel with
  | zero =>
    intro n acc rest hn
    obtain rfl : n = 0 := Nat.lt_one_iff.1 hn
    rfl
  | succ fuel ih =>
    intro n acc rest hn
    have hdigit : n % 16 < 16 := Nat.mod_lt n (by decide)
    rw [hexDigitsAux]
    split
    case isTrue hlast =>
      rw [List.cons_append, readHexDigits_hexDigit 0 hdigit]
      congr 1
      omega
    case isFalse =>
      have hquot : n / 16 < Nat.pow 16 fuel := by
        have hpow : Nat.pow 16 (fuel + 1) = Nat.pow 16 fuel * 16 := rfl
        omega
      rw [ih (n / 16) _ rest hquot, List.cons_append, readHexDigits_hexDigit _ hdigit]
      congr 1
      omega

/-- A code point is read back from its digits in braces. -/
theorem readHexDigits_hexDigits (c : Char) (rest : List Char) :
    readHexDigits 0 (hexDigits c.toNat ++ '\x7d' :: rest) = some (c.toNat, rest) := by
  have hfuel : c.toNat < Nat.pow 16 16 := by
    have hvalid := Utf8.toNat_valid c
    have hpow : Nat.pow 16 16 = 18446744073709551616 := by decide
    omega
  rw [hexDigits, readHexDigits_hexDigitsAux 16 c.toNat [] _ hfuel]
  simp only [List.nil_append, readHexDigits, ↓reduceIte]

/-! ## Characters between quotation marks -/

/-- The character that a letter stands for behind a backslash. -/
def escapedChar? (letter : Char) : Option Char :=
  if letter = '"' then some '"'
  else if letter = '\\' then some '\\'
  else if letter = 'n' then some '\n'
  else if letter = 'r' then some '\r'
  else if letter = 't' then some '\t'
  else if letter = '0' then some '\x00'
  else none

/-- Reads one character between quotation marks. -/
def readQuotedChar : List Char → Option (Char × List Char)
  | [] => none
  | c :: rest =>
    if c = '"' then none
    else if c = '\\' then
      match rest with
      | 'u' :: '\x7b' :: rest =>
        (readHexDigits 0 rest).map fun (n, rest) => (Char.ofNat n, rest)
      | letter :: rest => (escapedChar? letter).map (·, rest)
      | [] => none
    else some (c, rest)

theorem readQuotedChar_quoteChar (c : Char) (rest : List Char) :
    readQuotedChar (quoteChar c ++ rest) = some (c, rest) := by
  by_cases hquote : c = '"'
  · rw [hquote]
    rfl
  by_cases hbackslash : c = '\\'
  · rw [hbackslash]
    rfl
  by_cases hline : c = '\n'
  · rw [hline]
    rfl
  by_cases hreturn : c = '\r'
  · rw [hreturn]
    rfl
  by_cases htab : c = '\t'
  · rw [htab]
    rfl
  by_cases hnull : c = '\x00'
  · rw [hnull]
    rfl
  rw [quoteChar, if_neg hquote, if_neg hbackslash, if_neg hline, if_neg hreturn, if_neg htab,
    if_neg hnull]
  split
  -- By its number.
  · have hread := readHexDigits_hexDigits c rest
    simp [readQuotedChar, hread]
  -- As itself.
  · simp [readQuotedChar, hquote, hbackslash]

theorem selfDelimiting_quoteChar : SelfDelimiting quoteChar :=
  .of_reader readQuotedChar_quoteChar

/-- No character is written with a quotation mark in front. -/
theorem quoteChar_append_ne (c : Char) (x y : List Char) : quoteChar c ++ x ≠ ['"'] ++ y := by
  intro heq
  have hread := readQuotedChar_quoteChar c x
  rw [heq] at hread
  cases hread

/-- **A quoted text can be told from whatever follows it.** -/
theorem selfDelimiting_quote : SelfDelimiting fun s => (quote s).toList := by
  intro s t x y heq
  simp only [quote, String.toList_ofList, List.cons_append, List.cons.injEq, true_and] at heq
  obtain ⟨hchars, rfl⟩ :=
    selfDelimiting_quoteChar.flatMap_stop quoteChar_append_ne s.toList t.toList x y heq
  exact ⟨String.toList_inj.1 hchars, rfl⟩

end Chassis.Text
