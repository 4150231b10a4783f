import Chassis.Json.Reader
import Chassis.Proofs.Json.Text

/-!
# Reading back whole numbers in JSON

> **a whole number below 2^64 is read back from its decimal digits** (`readNumber_toDigits`), where
> nothing follows that could go on with it (`EndsNumber`).

A number has no closing mark of its own: the reader stops at the first byte that is not part of one,
so this is the one place of the format where the bytes behind a value matter. The digits of a number
never start with a superfluous zero (`head_toDigits_ne_zero`), which the reader would refuse.
-/

set_option autoImplicit false

namespace Chassis.Json

open Text Text.Utf8

/-- The next byte, if there is one, does not go on with a number. -/
def EndsNumber (tail : List UInt8) : Prop :=
  ∀ b t, tail = b :: t → (Char.ofNat b.toNat).isDigit = false ∧ Char.ofNat b.toNat ≠ '.' ∧
    Char.ofNat b.toNat ≠ 'e' ∧ Char.ofNat b.toNat ≠ 'E'

/-! ## Digits -/

theorem ascii_of_isDigit {d : Char} (h : d.isDigit = true) : d.toNat < 0x80 := by
  simp only [Char.isDigit, Bool.and_eq_true, decide_eq_true_eq, ge_iff_le] at h
  have h9 : d.toNat ≤ 57 := UInt32.le_iff_toNat_le.1 h.2
  omega

theorem length_encodeChars_digits {ds : List Char} (h : ∀ d ∈ ds, d.isDigit = true) :
    (encodeChars ds).length = ds.length := by
  induction ds with
  | nil => rfl
  | cons d ds ih =>
    rw [encodeChars_cons, encodeChar_ascii (ascii_of_isDigit (h d (by simp))), List.length_append,
      ih (fun x hx => h x (by simp [hx]))]
    simp [Nat.add_comm]

/-- The digits of a number start with zero for zero alone. -/
theorem head_toDigits_ne_zero {n : Nat} (hn : 0 < n) :
    ∀ d ds, Nat.toDigits 10 n = d :: ds → d ≠ '0' := by
  induction n using Nat.strongRecOn with
  | ind n ih =>
    intro d ds h
    rw [Nat.toDigits_eq_if (by decide)] at h
    split at h
    case isTrue hlt =>
      obtain ⟨rfl, -⟩ := List.cons.inj h
      simpa using by omega
    case isFalse hge =>
      cases hq : Nat.toDigits 10 (n / 10) with
      | nil => exact absurd hq Nat.toDigits_ne_nil
      | cons q qs =>
        rw [hq] at h
        obtain ⟨rfl, -⟩ := List.cons.inj h
        exact ih (n / 10) (by omega) (by omega) _ _ hq

theorem le_ofDigitChars (ds : List Char) : ∀ n : Nat, n ≤ Nat.ofDigitChars 10 ds n := by
  induction ds with
  | nil => exact fun n => by simp
  | cons d ds ih =>
    intro n
    rw [Nat.ofDigitChars_cons]
    have := ih (10 * n + (d.toNat - '0'.toNat))
    omega

/-- Nothing of a number is left where it ends. -/
theorem atDigit_of_ends {c : Cursor} (h : EndsNumber c.rest) : c.atDigit = false := by
  cases hr : c.rest with
  | nil => simp [Cursor.atDigit, Cursor.peek?_nil hr]
  | cons b t => simp [Cursor.atDigit, Cursor.peek?_cons hr, (h b t hr).1]

theorem atExponent_of_ends {c : Cursor} (h : EndsNumber c.rest) : c.atExponent = false := by
  cases hr : c.rest with
  | nil => simp [Cursor.atExponent, Cursor.peek?_nil hr]
  | cons b t =>
    obtain ⟨-, -, he, hE⟩ := h b t hr
    simp [Cursor.atExponent, Cursor.peek?_cons hr, he, hE]

theorem peek?_ne_point_of_ends {c : Cursor} (h : EndsNumber c.rest) : c.peek? ≠ some '.' := by
  cases hr : c.rest with
  | nil => simp [Cursor.peek?_nil hr]
  | cons b t => simp [Cursor.peek?_cons hr, (h b t hr).2.1]

theorem digitCount_of_ends {c : Cursor} (h : EndsNumber c.rest) : c.digitCount = 0 := by
  cases hr : c.rest with
  | nil => simp [Cursor.digitCount, hr]
  | cons b t => simp [Cursor.digitCount, hr, (h b t hr).1]

theorem skipDigits_of_ends {c : Cursor} (h : EndsNumber c.rest) : c.skipDigits = c := by
  cases hr : c.rest with
  | nil => exact Cursor.skipWhile_nil hr
  | cons b t => exact Cursor.skipWhile_cons hr (h b t hr).1

/-- The digits of a number that fits 64 bits are all read, and nothing more. -/
theorem readDigits_append {tail : List UInt8} (ht : EndsNumber tail) : ∀ {ds : List Char}
    (fuel acc count : Nat) {c : Cursor}, (∀ d ∈ ds, d.isDigit = true) →
    c.rest = encodeChars ds ++ tail → ds.length ≤ fuel →
    Nat.ofDigitChars 10 ds acc < 0x10000000000000000 →
    ∃ c', readDigits fuel acc count c = (Nat.ofDigitChars 10 ds acc, count + ds.length, c') ∧
      c'.rest = tail
  | [], fuel, acc, count, c, _, h, _, _ => by
    have h : c.rest = tail := h
    refine ⟨c, ?_, h⟩
    have hd := atDigit_of_ends (h ▸ ht)
    cases fuel with
    | zero => rfl
    | succ fuel =>
      cases hp : c.peek? with
      | none => simp [readDigits, hp]
      | some d =>
        simp only [Cursor.atDigit, hp, Option.any_some] at hd
        simp [readDigits, hp, hd]
  | d :: ds, 0, _, _, _, _, _, hf, _ => absurd hf (by simp)
  | d :: ds, fuel + 1, acc, count, c, hd, h, hf, hv => by
    have hdig := hd d (by simp)
    rw [encodeChars_cons, encodeChar_ascii (ascii_of_isDigit hdig)] at h
    have hp : c.peek? = some d := by
      rw [Cursor.peek?_cons h, toNat_toUInt8 (by have := ascii_of_isDigit hdig; omega),
        Char.ofNat_toNat]
    have hacc : acc * 10 + digitValue d = 10 * acc + (d.toNat - '0'.toNat) := by
      rw [digitValue, Nat.mul_comm]
    have hv' : Nat.ofDigitChars 10 ds (acc * 10 + digitValue d) < 0x10000000000000000 := by
      rwa [hacc, ← Nat.ofDigitChars_cons]
    -- Later digits only make the number larger, so it does not run over on the way.
    have hlt : acc * 10 + digitValue d < 0x10000000000000000 :=
      Nat.lt_of_le_of_lt (le_ofDigitChars ds _) hv'
    obtain ⟨c', hc, hr⟩ := readDigits_append ht fuel (acc * 10 + digitValue d) (count + 1)
      (fun x hx => hd x (by simp [hx])) (Cursor.next_rest h)
      (by simpa using hf) hv'
    refine ⟨c', ?_, hr⟩
    simp only [readDigits, hp, hdig, decide_eq_true hlt, Bool.and_self, ↓reduceIte, hc]
    rw [hacc, ← Nat.ofDigitChars_cons, List.length_cons]
    simp only [Prod.mk.injEq, and_true, true_and]
    omega

/-! ## Numbers -/

theorem isSpace_of_isDigit {d : Char} (h : d.isDigit = true) : Cursor.isSpace d = false := by
  have ne (x : Char) (hx : x.isDigit = false) : d ≠ x := by
    rintro rfl
    rw [hx] at h
    exact Bool.noConfusion h
  simp [Cursor.isSpace, ne ' ' (by decide), ne '\n' (by decide), ne '\t' (by decide),
    ne '\r' (by decide)]

/-- The digits of a number are ahead: the first of them is the next byte, and it is no zero in front
of another digit. -/
theorem first_digit {n : Nat} {c : Cursor} {tail : List UInt8} (ht : EndsNumber tail)
    (h : c.rest = encodeChars (Nat.toDigits 10 n) ++ tail) :
    ∃ d, c.peek? = some d ∧ d.isDigit = true ∧ c.skipSpace = c ∧
      (decide (d = '0') && c.next.atDigit) = false := by
  cases hds : Nat.toDigits 10 n with
  | nil => exact absurd hds Nat.toDigits_ne_nil
  | cons d ds =>
    have hmem : d ∈ Nat.toDigits 10 n := by simp [hds]
    have hdig : d.isDigit = true := Nat.isDigit_of_mem_toDigits (by decide) (by decide) hmem
    have hascii := ascii_of_isDigit hdig
    have hchar : Char.ofNat d.toNat.toUInt8.toNat = d := by
      rw [toNat_toUInt8 (by omega), Char.ofNat_toNat]
    rw [hds, encodeChars_cons, encodeChar_ascii hascii] at h
    refine ⟨d, ?_, hdig, ?_, ?_⟩
    · rw [Cursor.peek?_cons h, hchar]
    · exact Cursor.skipSpace_cons h (by rw [hchar]; exact isSpace_of_isDigit hdig)
    · by_cases hz : d = '0'
      -- A leading zero is the whole number, so behind it the number ends.
      · have hn : n = 0 := by
          rcases Nat.eq_zero_or_pos n with hn | hn
          · exact hn
          · exact absurd hz (head_toDigits_ne_zero hn d ds hds)
        rw [hn, Nat.toDigits_zero] at hds
        obtain ⟨-, rfl⟩ := List.cons.inj hds
        have hnext : c.next.rest = tail := Cursor.next_rest h
        rw [atDigit_of_ends (hnext ▸ ht), Bool.and_false]
      · rw [decide_eq_false hz, Bool.false_and]

/-- **A whole number is read back from its digits.** -/
theorem readNumber_toDigits {n : Nat} (hn : n < 0x10000000000000000) {c : Cursor}
    {tail : List UInt8} (ht : EndsNumber tail)
    (h : c.rest = encodeChars (Nat.toDigits 10 n) ++ tail) :
    ∃ c', readNumber true c = .ok (.integer n, c') ∧ c'.rest = tail := by
  have hdigits : ∀ d ∈ Nat.toDigits 10 n, d.isDigit = true :=
    fun d hd => Nat.isDigit_of_mem_toDigits (by decide) (by decide) hd
  have hlen : (Nat.toDigits 10 n).length ≤ c.rest.length := by
    rw [h, List.length_append, length_encodeChars_digits hdigits]
    omega
  obtain ⟨d, hp, hdig, -, hz⟩ := first_digit ht h
  obtain ⟨c', hc, hr⟩ := readDigits_append ht c.rest.length 0 0 hdigits h hlen
    (by rwa [Nat.ofDigitChars_ten_toDigits])
  have ht' : EndsNumber c'.rest := hr ▸ ht
  refine ⟨c', ?_, hr⟩
  rw [Nat.ofDigitChars_ten_toDigits] at hc
  simp only [readNumber, hp, hdig, hz, hc, skipDigits_of_ends ht', digitCount_of_ends ht',
    atExponent_of_ends ht', if_neg (peek?_ne_point_of_ends ht')]
  rfl

theorem word16Of_toNat (n : UInt16) (c : Cursor) : word16Of c (.integer n.toNat) = .ok (n, c) := by
  have hlt := n.toNat_lt
  have hfit : (0 : Int) ≤ (n.toNat : Int) ∧ (n.toNat : Int) < 65536 := by omega
  rw [word16Of, if_pos hfit, Int.toNat_natCast]
  simp

theorem readWord16_toDigits (n : UInt16) {c : Cursor} {tail : List UInt8} (ht : EndsNumber tail)
    (h : c.rest = encodeChars (Nat.toDigits 10 n.toNat) ++ tail) :
    ∃ c', readWord16 c = .ok (n, c') ∧ c'.rest = tail := by
  have hlt : n.toNat < 65536 := by
    have := n.toNat_lt
    omega
  obtain ⟨d, hp, hdig, hs, -⟩ := first_digit ht h
  obtain ⟨c', hc, hr⟩ := readNumber_toDigits (by omega) ht h
  have hminus : d ≠ '-' := by
    rintro rfl
    exact absurd hdig (by decide)
  refine ⟨c', ?_, hr⟩
  simp only [readWord16, hs, hp, Option.any_some, hdig, ↓reduceIte, hc]
  split
  case h_1 heq => exact absurd (Option.some.inj heq) hminus
  case h_2 =>
    rw [ok_bind]
    exact word16Of_toNat n c'

end Chassis.Json
