import Chassis.Proofs.Outcome
import Chassis.Proofs.Text.Utf8
import Chassis.Wire.Reader

/-!
# Numbers, keys and lengths on the RPC wire

> **a number below 2⁶⁴ is read back, and what follows it is left alone**
> (`readVarint_writeVarint`).

Ten groups of seven bits are seventy, and the reader takes only one bit of the last group. The bound
`2 * 128 ^ fuel` of the loop says both: it is what the groups still to come hold, and it goes down
by a factor of 128 with each group.
-/

set_option autoImplicit false

namespace Chassis.Wire

open Text.Utf8

/-! ## Numbers -/

/-- What the groups add up to, from the lowest one on. -/
theorem low_group_add (acc n shift : Nat) :
    acc + (0x80 + n % 0x80 - 0x80) * Nat.pow 2 shift + n / 0x80 * Nat.pow 2 (shift + 7) =
      acc + n * Nat.pow 2 shift := by
  have hpow : Nat.pow 2 (shift + 7) = 0x80 * Nat.pow 2 shift :=
    (Nat.pow_add 2 shift 7).trans (Nat.mul_comm _ _)
  rw [hpow, Nat.add_sub_cancel_left, Nat.add_assoc, ← Nat.mul_assoc, ← Nat.add_mul,
    Nat.mul_comm (n / 0x80), Nat.mod_add_div]

/-- The last group of a number has its top bit clear. -/
theorem last_group_lt {n : Nat} (h : n < 0x80) : n.toUInt8 < 0x80 := by
  rw [UInt8.lt_iff_toNat_lt, toNat_toUInt8 (by omega)]
  exact h

/-- The other groups have it set. -/
theorem first_group_not_lt (n : Nat) : ¬ (0x80 + n % 0x80).toUInt8 < 0x80 := by
  rw [UInt8.lt_iff_toNat_lt, toNat_toUInt8 (by omega)]
  exact Nat.not_lt.2 (Nat.le_add_right 0x80 _)

/-- The groups of a number are read back. -/
theorem readVarintLoop_varintLoop (tail : List UInt8) : ∀ (fuel shift acc n : Nat),
    n < 2 * Nat.pow 0x80 fuel →
    readVarintLoop (fuel + 1) shift acc (varintLoop (fuel + 1) n ++ tail) =
      .ok (acc + n * Nat.pow 2 shift, tail) := by
  intro fuel
  induction fuel with
  | zero =>
    intro shift acc n hn
    -- The tenth group has room for one bit.
    have hn : n < 2 := hn
    have hb : n.toUInt8.toNat = n := toNat_toUInt8 (by omega)
    rw [varintLoop, if_pos (by omega), List.cons_append, List.nil_append, readVarintLoop,
      if_neg (by omega), if_pos (last_group_lt (by omega)), hb]
  | succ fuel ih =>
    intro shift acc n hn
    by_cases hlt : n < 0x80
    · have hb : n.toUInt8.toNat = n := toNat_toUInt8 (by omega)
      rw [varintLoop, if_pos hlt, List.cons_append, List.nil_append, readVarintLoop,
        if_neg (by omega), if_pos (last_group_lt hlt), hb]
    · have hb : (0x80 + n % 0x80).toUInt8.toNat = 0x80 + n % 0x80 := toNat_toUInt8 (by omega)
      have hdiv : n / 0x80 < 2 * Nat.pow 0x80 fuel := by
        refine Nat.div_lt_of_lt_mul ?_
        rw [← Nat.mul_assoc, Nat.mul_comm 0x80 2, Nat.mul_assoc, Nat.mul_comm 0x80]
        exact hn
      rw [varintLoop, if_neg hlt, List.cons_append, readVarintLoop, if_neg (by omega),
        if_neg (first_group_not_lt n), ih _ _ _ hdiv, hb, low_group_add]

/-- **A number is read back**, and what follows it is left alone. -/
theorem readVarint_writeVarint {n : Nat} (hn : n < 0x10000000000000000) (tail : List UInt8) :
    readVarint (writeVarint n ++ tail) = .ok (n, tail) := by
  have h := readVarintLoop_varintLoop tail 9 0 0 n hn
  rw [readVarint, writeVarint, h]
  exact congrArg (fun m => Except.ok (m, tail)) ((Nat.zero_add _).trans (Nat.mul_one n))

/-! ## Keys -/

def WireType.number : WireType → Nat
  | varint => 0
  | sixtyFourBit => 1
  | lengthDelimited => 2
  | startGroup => 3
  | endGroup => 4
  | thirtyTwoBit => 5

theorem WireType.ofNumber?_number (w : WireType) : ofNumber? w.number = some w := by
  cases w <;> rfl

theorem WireType.number_lt (w : WireType) : w.number < 8 := by
  cases w <;> decide

/-- A number that fields may have. -/
def IsTag (tag : Nat) : Prop := 0 < tag ∧ tag < 0x20000000

theorem readKey_writeKey {tag : Nat} (ht : IsTag tag) (w : WireType) (tail : List UInt8) :
    readKey (writeKey tag w.number ++ tail) = .ok ((tag, w), tail) := by
  obtain ⟨hpos, hlt⟩ := ht
  have hw := w.number_lt
  rw [readKey, writeKey, readVarint_writeVarint (by omega), ok_bind]
  have hdiv : (tag * 8 + w.number) / 8 = tag := by omega
  have hmod : (tag * 8 + w.number) % 8 = w.number := by omega
  simp only [if_neg (show ¬ 0x100000000 ≤ tag * 8 + w.number by omega), hmod, hdiv,
    w.ofNumber?_number, if_neg (show ¬ tag = 0 by omega)]

/-! ## Contents with a length before them -/

/-- Contents behind their length. -/
def prefixed (contents : List UInt8) : List UInt8 := writeVarint contents.length ++ contents

theorem readDelimited_prefixed {contents : List UInt8}
    (h : contents.length < 0x10000000000000000) (tail : List UInt8) :
    readDelimited (prefixed contents ++ tail) = .ok (contents, tail) := by
  rw [readDelimited, prefixed, List.append_assoc, readVarint_writeVarint h, ok_bind]
  simp only [List.length_append, if_neg (Nat.not_lt.2 (Nat.le_add_right contents.length _)),
    List.take_left, List.drop_left]

theorem readText_prefixed {s : String} (h : (encode s).length < 0x10000000000000000)
    (tail : List UInt8) :
    readText .lengthDelimited (prefixed (encode s) ++ tail) = .ok (s, tail) := by
  rw [readText, readDelimited_prefixed h]
  simp only [expect, ↓reduceIte, ok_bind, decode?_encode]

end Chassis.Wire
