import Chassis.Proofs.Json.Ahead

/-!
# Numbers of JSON texts

> **Both readers of numbers take what is a number by the grammar** (`skipNumber_numeral`,
> `exists_numeral_of_skipNumber`, `of_readNumber`), **and a number of 16 bits is read where one is
> written with digits alone** (`readWord16_numeral`).

The digits of a number are read in parts: onto a number as long as that fits 64 bits, and then
passed over. Where the reading stops among them is told by `DigitsRead`; the place behind all of
them is the same either way.
-/

set_option autoImplicit false

namespace Chassis.Json

/-! ## Skipping numbers -/

/-- A sign is passed over where there is one. -/
def skipSign (c : Cursor) : Cursor :=
  match c.peek? with
  | some '+' | some '-' => c.next
  | _ => c

theorem skipSign_sign (e : Exponent) {c : Cursor} {tail : List UInt8}
    (h : c.rest = e.sign ++ (e.digits.bytes ++ tail)) :
    (skipSign c).rest = e.digits.bytes ++ tail := by
  rcases e.sign_eq with hs | hs | hs
  · -- Where there is no sign, the first digit is no sign either.
    rw [hs, List.nil_append] at h
    have hdigit := Cursor.atDigit_digits e.digits h
    rw [Cursor.atDigit] at hdigit
    rw [skipSign]
    split
    case h_1 hp => rw [hp] at hdigit; cases hdigit
    case h_2 hp => rw [hp] at hdigit; cases hdigit
    case h_3 => exact h
  · rw [hs] at h
    rw [skipSign, Cursor.peek?_cons h]
    exact Cursor.next_rest h
  · rw [hs] at h
    rw [skipSign, Cursor.peek?_cons h]
    exact Cursor.next_rest h

theorem exists_sign (c : Cursor) :
    ∃ sign, (sign = [] ∨ sign = [0x2B] ∨ sign = [0x2D]) ∧ c.rest = sign ++ (skipSign c).rest := by
  rw [skipSign]
  split
  case h_1 hp =>
    exact ⟨[0x2B], .inr (.inl rfl), Cursor.rest_eq_cons_next hp⟩
  case h_2 hp =>
    exact ⟨[0x2D], .inr (.inr rfl), Cursor.rest_eq_cons_next hp⟩
  case h_3 => exact ⟨[], .inl rfl, rfl⟩

theorem skipExponent_eq (c : Cursor) :
    skipExponent c =
      if (skipSign c.next).atDigit then .ok (skipSign c.next).skipDigits
      else (skipSign c.next).next.fail .invalidNumber := rfl

theorem atExponent_exponent (e : Exponent) {c : Cursor} {tail : List UInt8}
    (h : c.rest = Numeral.exponentBytes (some e) ++ tail) : c.atExponent = true := by
  rw [Cursor.atExponent, Cursor.peek?_cons h]
  rcases e.letter_eq with he | he
  · rw [he]; rfl
  · rw [he]; rfl

theorem exists_letter_of_atExponent {c : Cursor} (h : c.atExponent = true) :
    ∃ letter t, (letter = 0x65 ∨ letter = 0x45) ∧ c.rest = letter :: t := by
  rw [Cursor.atExponent] at h
  cases hp : c.peek? with
  | none => rw [hp] at h; cases h
  | some ch =>
    obtain ⟨t, ht⟩ := Cursor.exists_rest_of_peek? hp
    rw [hp, Option.any_some, Bool.or_eq_true, beq_iff_eq, beq_iff_eq] at h
    refine ⟨_, t, ?_, ht⟩
    rcases h with rfl | rfl
    · exact .inl rfl
    · exact .inr rfl

/-- The exponent of some letter, sign and digits that are ahead. -/
theorem exists_exponent {c : Cursor} {tail : List UInt8} (hletter : c.atExponent = true)
    (hdigit : (skipSign c.next).atDigit = true) (htail : (skipSign c.next).skipDigits.rest = tail) :
    ∃ e : Exponent, c.rest = Numeral.exponentBytes (some e) ++ tail := by
  obtain ⟨letter, t, hl, ht⟩ := exists_letter_of_atExponent hletter
  obtain ⟨sign, hs, hsign⟩ := exists_sign c.next
  obtain ⟨ds, -, hds⟩ := Cursor.exists_digits_of_atDigit hdigit
  refine ⟨⟨letter, sign, ds, hl, hs⟩, ?_⟩
  rw [Cursor.next_rest ht, hds, htail] at hsign
  rw [ht, hsign]
  simp [Numeral.exponentBytes]

theorem skipExponent_exponent (e : Exponent) {c : Cursor} {tail : List UInt8}
    (h : c.rest = Numeral.exponentBytes (some e) ++ tail) (ht : EndsDigits tail) :
    Passes (skipExponent c) tail := by
  have hsign : c.next.rest = e.sign ++ (e.digits.bytes ++ tail) := by
    rw [Cursor.next_rest h]
    exact List.append_assoc _ _ _
  have hdigits := skipSign_sign e hsign
  rw [skipExponent_eq, if_pos (Cursor.atDigit_digits e.digits hdigits)]
  exact ⟨_, rfl, Cursor.skipDigits_digits e.digits hdigits ht⟩

theorem exists_exponent_of_skipExponent {c c' : Cursor} (hletter : c.atExponent = true)
    (h : skipExponent c = .ok c') :
    ∃ e : Exponent, c.rest = Numeral.exponentBytes (some e) ++ c'.rest := by
  rw [skipExponent_eq] at h
  split at h
  case isTrue hdigit =>
    cases h
    exact exists_exponent hletter hdigit rfl
  case isFalse => cases h

/-- The bytes of a number behind its sign start with a digit, which is a zero only if no other digit
follows it. -/
theorem first_of_whole (n : Numeral) {c : Cursor} {t : List UInt8} (h : c.rest = n.whole.bytes ++ t)
    (ht : EndsDigits t) :
    ∃ d, c.peek? = some d ∧ d.isDigit = true ∧ (decide (d = '0') && c.next.atDigit) = false := by
  cases hw : n.whole.bytes with
  | nil => exact absurd hw n.whole.ne_nil
  | cons b bs =>
    have hrest := h
    rw [hw] at hrest
    refine ⟨_, Cursor.peek?_cons hrest, n.whole.digit b (by rw [hw]; exact List.mem_cons_self), ?_⟩
    by_cases hb : Char.ofNat b.toNat = '0'
    · obtain rfl : b = 0x30 := eq_of_ofNat_toNat hb
      rw [n.leading bs hw] at hrest
      rw [Cursor.atDigit_eq_false.2 ((Cursor.next_rest hrest).symm ▸ ht), Bool.and_false]
    · rw [decide_eq_false hb, Bool.false_and]

/-- The digits in front of a place that ends them, as the whole part of a number. -/
theorem exists_whole {c : Cursor} {d : Char} (hp : c.peek? = some d) (hd : d.isDigit = true)
    (hz : (decide (d = '0') && c.next.atDigit) = false) :
    ∃ ds : Digits, ds.bytes = c.rest.takeWhile isDigitByte ∧
      c.rest = ds.bytes ++ c.skipDigits.rest ∧ ∀ t, ds.bytes = 0x30 :: t → t = [] := by
  have hdigit : c.atDigit = true := by rw [Cursor.atDigit, hp, Option.any_some, hd]
  obtain ⟨ds, htake, hds⟩ := Cursor.exists_digits_of_atDigit hdigit
  refine ⟨ds, htake, hds, fun t ht => ?_⟩
  rw [ht] at hds
  have hzero : d = '0' := by
    rw [Cursor.peek?_cons hds] at hp
    exact (Option.some.inj hp).symm
  rw [decide_eq_true hzero, Bool.true_and, Cursor.atDigit_eq_false, Cursor.next_rest hds] at hz
  cases t with
  | nil => rfl
  | cons b t =>
    have := ds.digit b (by rw [ht]; simp)
    rw [show (Char.ofNat b.toNat).isDigit = false from hz b _ rfl] at this
    cases this

/-- What is skipped behind the whole part of a number. -/
def skipFraction (c : Cursor) : Except Fault Cursor :=
  if c.peek? = some '.' then
    if !c.next.atDigit then c.next.failNext .invalidNumber
    else if c.next.skipDigits.atExponent then skipExponent c.next.skipDigits
    else .ok c.next.skipDigits
  else if c.atExponent then skipExponent c
  else .ok c

/-- Where a number starts, its whole part is skipped first. -/
theorem skipNumber_eq {c : Cursor} {d : Char} (hp : c.peek? = some d) (hd : d.isDigit = true)
    (hz : (decide (d = '0') && c.next.atDigit) = false) :
    ∃ c₁, c₁.rest = c.skipDigits.rest ∧ skipNumber c = skipFraction c₁ := by
  refine ⟨if d = '0' then c.next else c.skipDigits, ?_, ?_⟩
  · by_cases hd0 : d = '0'
    · -- Behind a zero there is no digit, so the digits are the zero alone.
      subst hd0
      obtain ⟨t, ht⟩ := Cursor.exists_rest_of_peek? hp
      rw [decide_eq_true rfl, Bool.true_and, Cursor.atDigit_eq_false, Cursor.next_rest ht] at hz
      rw [if_pos rfl, Cursor.next_rest ht, Cursor.rest_skipDigits, ht]
      have hzero : ∀ b ∈ [(0x30 : UInt8)], isDigitByte b = true :=
        List.forall_mem_singleton.2 (by decide)
      exact (dropWhile_digits ⟨[0x30], hzero, by simp⟩ hz).symm
    · rw [if_neg hd0]
  · simp only [skipNumber, hp, hd, hz]
    rfl

theorem peek?_point {ds : Digits} {c : Cursor} {tail : List UInt8}
    (h : c.rest = Numeral.fractionBytes (some ds) ++ tail) : c.peek? = some '.' :=
  Cursor.peek?_cons h

theorem peek?_ne_point (e : Option Exponent) {c : Cursor} {tail : List UInt8}
    (h : c.rest = Numeral.exponentBytes e ++ tail) (ht : EndsNumber tail) :
    c.peek? ≠ some '.' := by
  cases e with
  | none => exact peek?_ne_point_of_ends (h ▸ ht)
  | some e =>
    rw [Cursor.peek?_cons h]
    rcases e.letter_eq with he | he
    · rw [he]; decide
    · rw [he]; decide

/-- Behind the fraction, if there is one, the exponent is skipped, if there is one. -/
theorem passes_exponent (e : Option Exponent) {c : Cursor} {tail : List UInt8}
    (h : c.rest = Numeral.exponentBytes e ++ tail) (ht : EndsNumber tail) :
    Passes (if c.atExponent then skipExponent c else .ok c) tail := by
  cases e with
  | none =>
    have h : c.rest = tail := h
    rw [atExponent_of_ends (h ▸ ht)]
    exact ⟨c, rfl, h⟩
  | some e =>
    rw [if_pos (atExponent_exponent e h)]
    exact skipExponent_exponent e h ht.endsDigits

theorem exists_exponent_of_passes {c c' : Cursor}
    (h : (if c.atExponent then skipExponent c else .ok c) = .ok c') :
    ∃ e : Option Exponent, c.rest = Numeral.exponentBytes e ++ c'.rest := by
  split at h
  case isTrue hletter =>
    obtain ⟨e, he⟩ := exists_exponent_of_skipExponent hletter h
    exact ⟨some e, he⟩
  case isFalse =>
    cases h
    exact ⟨none, rfl⟩

/-- **A number is skipped**, behind its sign. -/
theorem skipNumber_numeral (n : Numeral) {c : Cursor} {tail : List UInt8}
    (h : c.rest = n.magnitude ++ tail) (ht : EndsNumber tail) : Passes (skipNumber c) tail := by
  have hexp := endsDigits_exponent n.exponent ht.endsDigits
  have hfrac := endsDigits_fraction n.fraction n.exponent ht.endsDigits
  rw [Numeral.magnitude, List.append_assoc, List.append_assoc] at h
  obtain ⟨d, hp, hd, hz⟩ := first_of_whole n h hfrac
  obtain ⟨c₁, hr₁, hskip⟩ := skipNumber_eq hp hd hz
  rw [Cursor.skipDigits_digits n.whole h hfrac] at hr₁
  rw [hskip, skipFraction]
  cases hf : n.fraction with
  | none =>
    rw [hf] at hr₁
    rw [if_neg (peek?_ne_point n.exponent hr₁ ht)]
    exact passes_exponent n.exponent hr₁ ht
  | some ds =>
    rw [hf] at hr₁
    have hr₂ := Cursor.next_rest hr₁
    rw [if_pos (peek?_point hr₁), Cursor.atDigit_digits ds hr₂]
    exact passes_exponent n.exponent (Cursor.skipDigits_digits ds hr₂ hexp) ht

/-- **What is skipped as a number is one.** -/
theorem exists_numeral_of_skipNumber {c c' : Cursor} (h : skipNumber c = .ok c')
    (negative : Bool) :
    ∃ n : Numeral, n.negative = negative ∧ c.rest = n.magnitude ++ c'.rest := by
  obtain ⟨d, hp, hd, hz⟩ : ∃ d, c.peek? = some d ∧ d.isDigit = true ∧
      (decide (d = '0') && c.next.atDigit) = false := by
    rw [skipNumber] at h
    split at h
    case h_1 => cases h
    case h_2 d hp =>
      refine ⟨d, hp, ?_⟩
      split at h
      case isTrue => cases h
      case isFalse hd =>
        split at h
        case isTrue => cases h
        case isFalse hz => exact ⟨by simpa using hd, by simpa using hz⟩
  obtain ⟨whole, -, hwhole, hleading⟩ := exists_whole hp hd hz
  obtain ⟨c₁, hr₁, hskip⟩ := skipNumber_eq hp hd hz
  obtain ⟨fraction, exponent, hrest⟩ : ∃ fraction exponent,
      c₁.rest = Numeral.fractionBytes fraction ++ (Numeral.exponentBytes exponent ++ c'.rest) := by
    rw [hskip, skipFraction] at h
    split at h
    case isTrue hpoint =>
      split at h
      case isTrue => cases h
      case isFalse hdigit =>
        obtain ⟨t, ht⟩ := Cursor.exists_rest_of_peek? hpoint
        obtain ⟨ds, -, hds⟩ := Cursor.exists_digits_of_atDigit (by simpa using hdigit)
        obtain ⟨e, he⟩ := exists_exponent_of_passes h
        rw [Cursor.next_rest ht, he] at hds
        exact ⟨some ds, e, by rw [ht, hds]; rfl⟩
    case isFalse =>
      obtain ⟨e, he⟩ := exists_exponent_of_passes h
      exact ⟨none, e, he⟩
  refine ⟨⟨negative, whole, fraction, exponent, hleading⟩, rfl, ?_⟩
  rw [Numeral.magnitude, List.append_assoc, List.append_assoc, ← hrest, hr₁]
  exact hwhole

/-! ## Reading numbers -/

/-- What is made of a significand and an exponent is a floating point number, and nothing is read
for it. -/
theorem of_ofParts {positive : Bool} {significand : Nat} {exponent : Int} {c c' : Cursor}
    {m : Number} (h : ofParts positive significand exponent c = .ok (m, c')) :
    c' = c ∧ ∃ x, m = .floating x := by
  rw [ofParts] at h
  split at h
  case h_1 =>
    cases h
    exact ⟨rfl, _, rfl⟩
  case h_2 => cases h

/-- The digits of an exponent are all read, or skipped once they are too many. -/
theorem rest_readExponentDigits : ∀ (fuel acc : Nat) {c : Cursor}, c.rest.length ≤ fuel →
    (∃ e c', readExponentDigits fuel acc c = (some e, c') ∧
        c'.rest = c.rest.dropWhile isDigitByte) ∨
      ∃ c', readExponentDigits fuel acc c = (none, c') ∧
        c'.skipDigits.rest = c.rest.dropWhile isDigitByte
  | 0, acc, c, hf => by
    have hnil : c.rest = [] := List.length_eq_zero_iff.1 (Nat.le_zero.1 hf)
    exact .inl ⟨acc, c, rfl, by rw [hnil]; rfl⟩
  | fuel + 1, acc, c, hf => by
    cases hr : c.rest with
    | nil =>
      refine .inl ⟨acc, c, ?_, hr⟩
      rw [readExponentDigits, Cursor.peek?_nil hr]
    | cons b t =>
      have hn := Cursor.next_rest hr
      rw [readExponentDigits, Cursor.peek?_cons hr]
      by_cases hd : isDigitByte b = true
      · rw [List.dropWhile_cons_of_pos hd]
        simp only [show (Char.ofNat b.toNat).isDigit = true from hd, ↓reduceIte]
        split
        · have hlen : c.next.rest.length ≤ fuel := by
            rw [hr, List.length_cons] at hf
            rw [hn]
            omega
          have ih := rest_readExponentDigits fuel (acc * 10 + digitValue (Char.ofNat b.toNat)) hlen
          rwa [hn] at ih
        · exact .inr ⟨c.next, rfl, by rw [Cursor.rest_skipDigits, hn]⟩
      · rw [List.dropWhile_cons_of_neg hd]
        simp only [if_neg hd]
        exact .inl ⟨acc, c, rfl, hr⟩

/-- The direction that a sign gives, and the place behind it. -/
def readSign (c : Cursor) : Bool × Cursor :=
  match c.peek? with
  | some '+' => (true, c.next)
  | some '-' => (false, c.next)
  | _ => (true, c)

theorem readSign_snd (c : Cursor) : (readSign c).2 = skipSign c := by
  rw [readSign, skipSign]
  split <;> rfl

/-- An exponent is read behind its sign, which only decides its direction. -/
theorem readExponent_eq (positive : Bool) (significand : Nat) (start : Int) (c : Cursor) :
    ∃ up, readExponent positive significand start c =
      match (skipSign c.next).peek? with
      | none => (skipSign c.next).fail .endInValue
      | some d =>
        if !d.isDigit then (skipSign c.next).next.fail .invalidNumber
        else
          match readExponentDigits (skipSign c.next).rest.length (digitValue d)
            (skipSign c.next).next with
          | (some e, c) => ofParts positive significand (if up then start + e else start - e) c
          | (none, c) =>
            if significand != 0 && up then c.fail .numberOutOfRange
            else .ok (.floating (if positive then 0.0 else -0.0), c.skipDigits) := by
  refine ⟨(readSign c.next).1, ?_⟩
  rw [← readSign_snd]
  rfl

/-- What is read as an exponent is one, and the number is a floating point number. -/
theorem of_readExponent {positive : Bool} {significand : Nat} {start : Int} {c c' : Cursor}
    {m : Number} (hletter : c.atExponent = true)
    (h : readExponent positive significand start c = .ok (m, c')) :
    (∃ e : Exponent, c.rest = Numeral.exponentBytes (some e) ++ c'.rest) ∧
      ∃ x, m = .floating x := by
  obtain ⟨up, heq⟩ := readExponent_eq positive significand start c
  rw [heq] at h
  split at h
  case h_1 => cases h
  case h_2 d hp =>
    split at h
    case isTrue => cases h
    case isFalse hd =>
      have hd : d.isDigit = true := by simpa using hd
      have hdigit : (skipSign c.next).atDigit = true := by
        rw [Cursor.atDigit, hp, Option.any_some, hd]
      obtain ⟨t, ht⟩ := Cursor.exists_rest_of_peek? hp
      have hn := Cursor.next_rest ht
      -- The first digit is read by itself, and the others in a loop.
      have hskip : (skipSign c.next).skipDigits.rest =
          (skipSign c.next).next.rest.dropWhile isDigitByte := by
        rw [Cursor.rest_skipDigits, hn, ht, List.dropWhile_cons_of_pos]
        rw [← Cursor.atDigit_cons ht, hdigit]
      have hlen : (skipSign c.next).next.rest.length ≤ (skipSign c.next).rest.length := by
        rw [hn, ht, List.length_cons]
        omega
      rcases rest_readExponentDigits _ (digitValue d) hlen with
        ⟨e, c₁, hread, hrest⟩ | ⟨c₁, hread, hrest⟩
      · rw [hread] at h
        obtain ⟨rfl, hm⟩ := of_ofParts h
        exact ⟨exists_exponent hletter hdigit (hskip.trans hrest.symm), hm⟩
      · rw [hread] at h
        simp only at h
        split at h
        case isTrue => cases h
        case isFalse =>
          cases h
          exact ⟨exists_exponent hletter hdigit (hskip.trans hrest.symm), _, rfl⟩

/-- What reading digits onto a number comes to: it stops among the digits, only where there are none
at the start or the number would not fit 64 bits, and where no digit is left the number is that of
all of them. -/
structure DigitsRead (acc count : Nat) (c : Cursor) (r : Nat × Nat × Cursor) : Prop where
  rest : r.2.2.skipDigits.rest = c.rest.dropWhile isDigitByte
  stays : c.atDigit = false → r.2.1 = count ∧ r.2.2 = c
  fits : r.1 < 0x10000000000000000
  value : r.2.2.atDigit = false →
    r.1 = Nat.ofDigitChars 10 ((c.rest.takeWhile isDigitByte).map fun b => Char.ofNat b.toNat) acc

theorem digitsRead_stop {acc : Nat} (count : Nat) (c : Cursor) (hacc : acc < 0x10000000000000000) :
    DigitsRead acc count c (acc, count, c) where
  rest := Cursor.rest_skipDigits c
  stays _ := ⟨rfl, rfl⟩
  fits := hacc
  value h := by
    have hnil : c.rest.takeWhile isDigitByte = [] := by
      cases hr : c.rest with
      | nil => rfl
      | cons b t => rw [List.takeWhile_cons_of_neg (by simp [Cursor.atDigit_eq_false.1 h b t hr])]
    rw [hnil]
    rfl

theorem digitsRead_readDigits : ∀ (fuel : Nat) {acc : Nat} (count : Nat) (c : Cursor),
    acc < 0x10000000000000000 → DigitsRead acc count c (readDigits fuel acc count c)
  | 0, _, count, c, hacc => digitsRead_stop count c hacc
  | fuel + 1, acc, count, c, hacc => by
    rw [readDigits]
    cases hp : c.peek? with
    | none => exact digitsRead_stop count c hacc
    | some d =>
      simp only
      split
      case isFalse => exact digitsRead_stop count c hacc
      case isTrue hd =>
        rw [Bool.and_eq_true, decide_eq_true_eq] at hd
        obtain ⟨t, ht⟩ := Cursor.exists_rest_of_peek? hp
        have hn := Cursor.next_rest ht
        have hchar : Char.ofNat d.toNat.toUInt8.toNat = d := by
          rw [Cursor.peek?_cons ht] at hp
          exact Option.some.inj hp
        have hbyte : isDigitByte d.toNat.toUInt8 = true := by rw [isDigitByte, hchar, hd.1]
        have ih := digitsRead_readDigits fuel (count + 1) c.next hd.2
        constructor
        · rw [ih.rest, hn, ht, List.dropWhile_cons_of_pos hbyte]
        · intro h
          rw [Cursor.atDigit_cons ht, hbyte] at h
          cases h
        · exact ih.fits
        · intro h
          rw [ih.value h, hn, ht, List.takeWhile_cons_of_pos hbyte, List.map_cons, hchar,
            Nat.ofDigitChars_cons, digitValue, Nat.mul_comm]

/-- Behind the digits of a fraction the number is a floating point number, with its exponent read if
there is one. -/
theorem of_exponent_or_parts {positive : Bool} {significand : Nat} {start : Int} {c c' : Cursor}
    {m : Number}
    (h : (if c.atExponent then readExponent positive significand start c
      else ofParts positive significand start c) = .ok (m, c')) :
    (∃ e : Option Exponent, c.rest = Numeral.exponentBytes e ++ c'.rest) ∧
      ∃ x, m = .floating x := by
  split at h
  case isTrue hletter =>
    obtain ⟨⟨e, he⟩, hm⟩ := of_readExponent hletter h
    exact ⟨⟨some e, he⟩, hm⟩
  case isFalse =>
    obtain ⟨rfl, hm⟩ := of_ofParts h
    exact ⟨⟨none, rfl⟩, hm⟩

/-- What is read as a fraction is one, with its exponent, and the number is a floating point
number. -/
theorem of_readFraction {positive : Bool} {significand before : Nat} {c c' : Cursor} {m : Number}
    (hpoint : c.peek? = some '.') (hfits : significand < 0x10000000000000000)
    (h : readFraction positive significand before c = .ok (m, c')) :
    (∃ (ds : Digits) (e : Option Exponent),
        c.rest = Numeral.fractionBytes (some ds) ++ (Numeral.exponentBytes e ++ c'.rest)) ∧
      ∃ x, m = .floating x := by
  have hread := digitsRead_readDigits c.rest.length 0 c.next hfits
  rw [readFraction] at h
  generalize readDigits c.rest.length significand 0 c.next = r at h hread
  obtain ⟨sig, count, c₁⟩ := r
  dsimp only at h
  -- Whatever was read, what is left is read at the place behind all digits.
  obtain ⟨start, hdigit, h⟩ : ∃ start, c.next.atDigit = true ∧
      (if c₁.skipDigits.atExponent then readExponent positive sig start c₁.skipDigits
        else ofParts positive sig start c₁.skipDigits) = .ok (m, c') := by
    cases hd₁ : c₁.atDigit with
    | true =>
      rw [hd₁, if_pos rfl] at h
      refine ⟨_, ?_, h⟩
      cases hd : c.next.atDigit with
      | true => rfl
      | false =>
        obtain ⟨-, rfl⟩ : count = 0 ∧ c₁ = c.next := hread.stays hd
        exact hd.symm.trans hd₁
    | false =>
      rw [hd₁, if_neg Bool.false_ne_true] at h
      rw [Cursor.skipDigits_of_atDigit hd₁]
      by_cases hcount : count = 0
      · rw [if_pos hcount] at h
        split at h
        case isTrue => cases h
        case isFalse => cases h
      · rw [if_neg hcount] at h
        refine ⟨_, ?_, h⟩
        cases hd : c.next.atDigit with
        | true => rfl
        | false => exact absurd (hread.stays hd).1 hcount
  obtain ⟨⟨e, he⟩, hm⟩ := of_exponent_or_parts h
  obtain ⟨ds, -, hds⟩ := Cursor.exists_digits_of_atDigit hdigit
  obtain ⟨t, ht⟩ := Cursor.exists_rest_of_peek? hpoint
  refine ⟨⟨ds, e, ?_⟩, hm⟩
  rw [Cursor.rest_skipDigits, ← hread.rest, he, Cursor.next_rest ht] at hds
  rw [ht, hds]
  rfl

theorem atDigit_of_digitCount {c : Cursor} (h : c.digitCount = 0) : c.atDigit = false := by
  rw [Cursor.atDigit_eq_false]
  intro b t hb
  rw [Cursor.digitCount, hb, List.length_eq_zero_iff] at h
  by_contra hd
  rw [List.takeWhile_cons_of_pos (by simpa using hd)] at h
  cases h

theorem digitCount_of_atDigit {c : Cursor} (h : c.atDigit = false) : c.digitCount = 0 := by
  cases hr : c.rest with
  | nil => simp [Cursor.digitCount, hr]
  | cons b t =>
    have hb : (Char.ofNat b.toNat).isDigit = false := Cursor.atDigit_eq_false.1 h b t hr
    simp [Cursor.digitCount, hr, hb]

/-- The number that the digits ahead stand for. -/
def Cursor.digitsValue (c : Cursor) (acc : Nat) : Nat :=
  Nat.ofDigitChars 10 ((c.rest.takeWhile isDigitByte).map fun b => Char.ofNat b.toNat) acc

/-- Digits of a number that fits 64 bits are all read. -/
theorem atDigit_readDigits : ∀ {fuel acc : Nat} (count : Nat) {c : Cursor}, c.rest.length ≤ fuel →
    c.digitsValue acc < 0x10000000000000000 → (readDigits fuel acc count c).2.2.atDigit = false
  | 0, _, _, c, hf, _ => by
    have hnil : c.rest = [] := List.length_eq_zero_iff.1 (Nat.le_zero.1 hf)
    rw [readDigits, Cursor.atDigit, Cursor.peek?_nil hnil]
    rfl
  | fuel + 1, acc, count, c, hf, hv => by
    rw [readDigits]
    cases hr : c.rest with
    | nil =>
      rw [Cursor.peek?_nil hr, Cursor.atDigit, Cursor.peek?_nil hr]
      rfl
    | cons b t =>
      have hn := Cursor.next_rest hr
      rw [Cursor.peek?_cons hr]
      cases hd : isDigitByte b with
      | false =>
        simp only [show (Char.ofNat b.toNat).isDigit = false from hd, Bool.false_and]
        rw [if_neg Bool.false_ne_true, Cursor.atDigit_cons hr, hd]
      | true =>
        have hacc : acc * 10 + digitValue (Char.ofNat b.toNat) =
            10 * acc + ((Char.ofNat b.toNat).toNat - '0'.toNat) := by
          rw [digitValue, Nat.mul_comm]
        have hv' : c.next.digitsValue (acc * 10 + digitValue (Char.ofNat b.toNat)) <
            0x10000000000000000 := by
          rwa [Cursor.digitsValue, hr, List.takeWhile_cons_of_pos hd, List.map_cons,
            Nat.ofDigitChars_cons, ← hacc, ← hn] at hv
        -- Later digits only make the number larger, so it does not run over on the way.
        have hlt := Nat.lt_of_le_of_lt (le_ofDigitChars _ _) hv'
        have hlen : c.next.rest.length ≤ fuel := by
          rw [hr, List.length_cons] at hf
          rw [hn]
          omega
        simp only [show (Char.ofNat b.toNat).isDigit = true from hd, decide_eq_true hlt,
          Bool.and_self, ↓reduceIte]
        exact atDigit_readDigits (count + 1) hlen hv'

/-- What is known of an integer that was read. -/
structure IntegerRead (positive : Bool) (c c' : Cursor) (k : Int) : Prop where
  rest : c'.rest = c.rest.dropWhile isDigitByte
  point : c'.peek? ≠ some '.'
  exponent : c'.atExponent = false
  value : positive = true → k = c.digitsValue 0
  negative : positive = false → k < 0

/-- **What is read as a number is one**; it is an integer only if it is written with digits alone,
and then it is the one that the digits stand for. -/
theorem of_readNumber {positive : Bool} {c c' : Cursor} {m : Number}
    (h : readNumber positive c = .ok (m, c')) (negative : Bool) :
    (∃ n : Numeral, n.negative = negative ∧ c.rest = n.magnitude ++ c'.rest) ∧
      ∀ k, m = .integer k → IntegerRead positive c c' k := by
  rw [readNumber] at h
  split at h
  case h_1 => cases h
  case h_2 d hp =>
  split at h
  case isTrue => cases h
  case isFalse hd =>
  split at h
  case isTrue => cases h
  case isFalse hz =>
  obtain ⟨whole, -, hwhole, hleading⟩ := exists_whole hp (by simpa using hd) (by simpa using hz)
  have hread := digitsRead_readDigits c.rest.length 0 c (by decide : 0 < 0x10000000000000000)
  generalize readDigits c.rest.length 0 0 c = r at h hread
  obtain ⟨sig, count, c₁⟩ := r
  dsimp only at h
  have hrest : c₁.skipDigits.rest = c.skipDigits.rest := by rw [hread.rest, Cursor.rest_skipDigits]
  -- The rest of the number, whichever way it was read.
  suffices hsuff : (∃ fraction exponent, c₁.skipDigits.rest =
      Numeral.fractionBytes fraction ++ (Numeral.exponentBytes exponent ++ c'.rest)) ∧
      ∀ k, m = .integer k → IntegerRead positive c c' k by
    obtain ⟨⟨fraction, exponent, hbehind⟩, hm⟩ := hsuff
    refine ⟨⟨⟨negative, whole, fraction, exponent, hleading⟩, rfl, ?_⟩, hm⟩
    rw [Numeral.magnitude, List.append_assoc, List.append_assoc, ← hbehind, hrest]
    exact hwhole
  split at h
  case isTrue hpoint =>
    obtain ⟨⟨ds, e, he⟩, x, rfl⟩ := of_readFraction hpoint hread.fits h
    exact ⟨⟨some ds, e, he⟩, fun k hk => by cases hk⟩
  case isFalse hpoint =>
    split at h
    case isTrue hletter =>
      obtain ⟨⟨e, he⟩, x, rfl⟩ := of_readExponent hletter h
      exact ⟨⟨none, some e, he⟩, fun k hk => by cases hk⟩
    case isFalse hletter =>
      split at h
      case isTrue hcount =>
        have hvalue := hread.value (atDigit_of_digitCount hcount)
        cases h
        refine ⟨⟨none, none, rfl⟩, fun k hk => ?_⟩
        refine ⟨hread.rest, hpoint, by simpa using hletter, fun hpos => ?_, fun hneg => ?_⟩
        · rw [wholeNumber, if_pos hpos] at hk
          cases hk
          exact congrArg Nat.cast hvalue
        · rw [wholeNumber, if_neg (by simp [hneg])] at hk
          split at hk
          case isTrue hsig =>
            cases hk
            omega
          case isFalse => cases hk
      case isFalse =>
        obtain ⟨rfl, x, rfl⟩ := of_ofParts h
        exact ⟨⟨none, none, rfl⟩, fun k hk => by cases hk⟩

/-- A natural number that fits 64 bits is read. -/
theorem readNumber_natural (n : Numeral) (hf : n.fraction = none) (he : n.exponent = none)
    (hfits : n.whole.value < 0x10000000000000000) {c : Cursor} {tail : List UInt8}
    (h : c.rest = n.magnitude ++ tail) (ht : EndsNumber tail) :
    ∃ c', readNumber true c = .ok (.integer n.whole.value, c') ∧ c'.rest = tail := by
  have h : c.rest = n.whole.bytes ++ tail := by
    rw [h, Numeral.magnitude, hf, he]
    simp [Numeral.fractionBytes, Numeral.exponentBytes]
  obtain ⟨d, hp, hd, hz⟩ := first_of_whole n h ht.endsDigits
  have hvalue : c.digitsValue 0 = n.whole.value := by
    rw [Cursor.digitsValue, h, takeWhile_digits n.whole ht.endsDigits, Digits.value]
  have hat := atDigit_readDigits 0 (Nat.le_refl c.rest.length) (hvalue ▸ hfits)
  have hread := digitsRead_readDigits c.rest.length 0 c (by decide : 0 < 0x10000000000000000)
  rw [readNumber, hp]
  simp only [hd, hz]
  generalize readDigits c.rest.length 0 0 c = r at hat hread
  obtain ⟨sig, count, c₁⟩ := r
  have hskip : c₁.skipDigits = c₁ := Cursor.skipDigits_of_atDigit hat
  have hrest : c₁.rest = tail := by
    rw [← hskip, hread.rest, h, dropWhile_digits n.whole ht.endsDigits]
  have hends : EndsNumber c₁.rest := hrest ▸ ht
  refine ⟨c₁, ?_, hrest⟩
  dsimp only
  rw [hskip, if_neg (peek?_ne_point_of_ends hends), atExponent_of_ends hends,
    digitCount_of_atDigit hat, show sig = c.digitsValue 0 from hread.value hat, hvalue]
  rfl

/-! ## Numbers of 16 bits -/

theorem of_word16Of {c c' : Cursor} {m : Number} {v : UInt16} (h : word16Of c m = .ok (v, c')) :
    c' = c ∧ ∃ k : Nat, m = .integer k ∧ k < 65536 ∧ v = k.toUInt16 := by
  cases m with
  | floating x => cases h
  | integer k =>
    rw [word16Of] at h
    split at h
    case isTrue hk =>
      cases h
      exact ⟨rfl, k.toNat, by rw [Int.toNat_of_nonneg hk.1], by omega, rfl⟩
    case isFalse => cases h

theorem word16Of_natural {k : Nat} (hk : k < 65536) (c : Cursor) :
    word16Of c (.integer k) = .ok (k.toUInt16, c) := by
  have hfit : (0 : Int) ≤ (k : Int) ∧ (k : Int) < 65536 := by omega
  rw [word16Of, if_pos hfit, Int.toNat_natCast]

/-- What is read as a number of 16 bits is written as a number, and its integer was read behind the
sign that it has. -/
theorem of_readWord16 {c c' : Cursor} {v : UInt16} (h : readWord16 c = .ok (v, c')) :
    (∃ n : Numeral, c.skipSpace.rest = n.bytes ++ c'.rest) ∧
      ∃ k : Nat, IntegerRead true c.skipSpace c' k ∧ c.skipSpace.atDigit = true ∧ k < 65536 ∧
        v = k.toUInt16 := by
  rw [readWord16] at h
  dsimp only at h
  split at h
  case h_1 hp =>
    -- Behind a minus sign an integer is less than zero.
    cases hread : readNumber false c.skipSpace.next with
    | error fault => rw [hread] at h; cases h
    | ok r =>
      obtain ⟨m, c₁⟩ := r
      rw [hread, ok_bind] at h
      obtain ⟨rfl, k, rfl, -⟩ := of_word16Of h
      have hneg := ((of_readNumber hread false).2 _ rfl).negative rfl
      omega
  case h_2 =>
    split at h
    case isTrue hdigit =>
      cases hread : readNumber true c.skipSpace with
      | error fault => rw [hread] at h; cases h
      | ok r =>
        obtain ⟨m, c₁⟩ := r
        rw [hread, ok_bind] at h
        obtain ⟨rfl, k, rfl, hk, rfl⟩ := of_word16Of h
        obtain ⟨⟨n, hn, hrest⟩, hinteger⟩ := of_readNumber hread false
        refine ⟨⟨n, ?_⟩, k, hinteger _ rfl, hdigit, hk, rfl⟩
        rw [Numeral.bytes, hn, if_neg Bool.false_ne_true]
        exact hrest
    case isFalse => exact absurd h (failType_ne_ok _ _ _)

theorem Numeral.natural?_eq_some_iff (n : Numeral) {k : Nat} :
    n.natural? = some k ↔
      n.negative = false ∧ n.fraction = none ∧ n.exponent = none ∧ n.whole.value = k := by
  rw [natural?]
  cases n.negative with
  | true => simp
  | false =>
    cases n.fraction with
    | some ds => simp
    | none =>
      cases n.exponent with
      | some e => simp
      | none => simp

/-- Where an integer was read among the bytes of a number, the number is written with digits alone,
and it is the integer. -/
theorem IntegerRead.natural? {n : Numeral} {c c' : Cursor} {k : Nat} {tail : List UInt8}
    (hk : IntegerRead true c c' k) (hdigit : c.atDigit = true) (h : c.rest = n.bytes ++ tail)
    (ht : EndsNumber tail) : n.natural? = some k := by
  have hneg : n.negative = false := by
    cases hn : n.negative with
    | false => rfl
    | true =>
      rw [Numeral.bytes, hn, if_pos rfl] at h
      rw [Cursor.atDigit_cons h] at hdigit
      cases hdigit
  have hfrac := endsDigits_fraction n.fraction n.exponent ht.endsDigits
  rw [Numeral.bytes, hneg, if_neg Bool.false_ne_true, Numeral.magnitude, List.append_assoc,
    List.append_assoc] at h
  have hrest := hk.rest
  rw [h, dropWhile_digits n.whole hfrac] at hrest
  have hvalue := hk.value rfl
  rw [Cursor.digitsValue, h, takeWhile_digits n.whole hfrac] at hvalue
  rw [Numeral.natural?_eq_some_iff]
  cases hf : n.fraction with
  | some ds =>
    rw [hf] at hrest
    exact absurd (peek?_point hrest) hk.point
  | none =>
    rw [hf] at hrest
    cases he : n.exponent with
    | some e =>
      rw [he] at hrest
      have := hk.exponent
      rw [atExponent_exponent e hrest] at this
      cases this
    | none => exact ⟨hneg, rfl, rfl, (Int.natCast_inj.1 hvalue).symm⟩

theorem readWord16_of_atDigit {c : Cursor} (h : c.skipSpace.atDigit = true) :
    readWord16 c = readNumber true c.skipSpace >>= fun r => word16Of r.2 r.1 := by
  rw [Cursor.atDigit] at h
  rw [readWord16]
  dsimp only
  split
  case h_1 hp => rw [hp] at h; cases h
  case h_2 => rw [h, if_pos rfl]

/-- **A number of 16 bits is read where one is written with digits alone**, and any other number is
refused. -/
theorem readWord16_numeral (n : Numeral) {c : Cursor} {tail : List UInt8}
    (h : c.skipSpace.rest = n.bytes ++ tail) (ht : EndsNumber tail) :
    Yields (readWord16 c) (Form.number n).word16? tail := by
  cases hv : (Form.number n).word16? with
  | some v =>
    obtain ⟨k, hnat, hv⟩ := Option.bind_eq_some_iff.1 hv
    obtain ⟨hneg, hf, he, rfl⟩ := n.natural?_eq_some_iff.1 hnat
    rw [Numeral.bytes, hneg, if_neg Bool.false_ne_true] at h
    split at hv
    case isFalse => cases hv
    case isTrue hlt =>
      cases hv
      obtain ⟨c', hread, hrest⟩ := readNumber_natural n hf he (by omega) h ht
      rw [Numeral.magnitude, List.append_assoc] at h
      refine ⟨c', ?_, hrest⟩
      rw [readWord16_of_atDigit (Cursor.atDigit_digits n.whole h), hread, ok_bind]
      exact word16Of_natural hlt c'
  | none =>
    refine exists_error fun r hread => ?_
    obtain ⟨v, c'⟩ := r
    obtain ⟨-, k, hinteger, hdigit, hlt, rfl⟩ := of_readWord16 hread
    rw [Form.word16?, Form.natural?, hinteger.natural? hdigit h ht, Option.bind_some,
      if_pos hlt] at hv
    cases hv

end Chassis.Json
