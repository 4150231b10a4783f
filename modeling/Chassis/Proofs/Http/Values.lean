import Chassis.Http.Message
import Chassis.Proofs.Text.Utf8

/-!
# Values of headers

> **the text of a header's value is written as the value, and a value has one exactly when it
> consists of visible ASCII characters, spaces and tabs** (`Http.encode_of_visibleText?`,
> `Http.exists_visibleText?_iff`).

The reader makes a character of each byte, the writer a byte of each character; on ASCII they undo
each other. So a text whose bytes are a visible value is read back from it
(`Http.visibleText?_encode`).
-/

set_option autoImplicit false

namespace Chassis.Http

open Text.Utf8

/-- The value consists of visible ASCII characters, spaces and tabs. -/
def IsVisibleValue (value : List UInt8) : Prop :=
  ∀ b ∈ value, (0x20 ≤ b ∧ b < 0x7F) ∨ b = 9

instance (value : List UInt8) : Decidable (IsVisibleValue value) :=
  inferInstanceAs (Decidable (∀ b ∈ value, (0x20 ≤ b ∧ b < 0x7F) ∨ b = 9))

/-- A character of ASCII that was made of a byte is written as this byte. -/
theorem encodeChars_ofNat_toNat {value : List UInt8} (h : ∀ b ∈ value, b < 0x80) :
    encodeChars (value.map fun b => Char.ofNat b.toNat) = value := by
  rw [encodeChars_of_ascii]
  · rw [List.map_map]
    refine (List.map_congr_left fun b _ => ?_).trans (List.map_id _)
    simp only [Function.comp_apply, toNat_ofNat_byte, Nat.toUInt8_eq, UInt8.ofNat_toNat, id]
  · intro c hc
    obtain ⟨b, hb, rfl⟩ := List.mem_map.1 hc
    rw [toNat_ofNat_byte]
    exact UInt8.lt_iff_toNat_lt.1 (h b hb)

/-- The text of a value is written as the value. -/
theorem encode_of_visibleText? {value : List UInt8} {text : String}
    (h : visibleText? value = some text) : encode text = value := by
  rw [visibleText?] at h
  split at h
  case isTrue hvisible =>
    obtain rfl := Option.some.inj h
    rw [encode, String.toList_ofList]
    refine encodeChars_ofNat_toNat fun b hb => ?_
    have hb := List.all_eq_true.1 hvisible b hb
    simp only [Bool.or_eq_true, Bool.and_eq_true, decide_eq_true_eq, beq_iff_eq] at hb
    rcases hb with ⟨-, hlt⟩ | rfl
    · exact UInt8.lt_trans hlt (by decide)
    · decide
  case isFalse => cases h

theorem exists_visibleText?_iff {value : List UInt8} :
    (∃ text, visibleText? value = some text) ↔ IsVisibleValue value := by
  have hall : (value.all fun b => (0x20 ≤ b && b < 0x7F) || b == 9) = true ↔
      IsVisibleValue value := by
    simp [IsVisibleValue]
  rw [← hall, visibleText?]
  split
  case isTrue h => exact iff_of_true ⟨_, rfl⟩ h
  case isFalse h => exact iff_of_false (fun ⟨_, hnone⟩ => nomatch hnone) h

/-- A text that is written as a visible value is read back. -/
theorem visibleText?_encode {text : String} (h : IsVisibleValue (encode text)) :
    visibleText? (encode text) = some text := by
  obtain ⟨text', htext'⟩ := exists_visibleText?_iff.2 h
  rw [htext', encode_injective (encode_of_visibleText? htext')]

end Chassis.Http
