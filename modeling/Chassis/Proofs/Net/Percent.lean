import Chassis.Net.Percent
import Chassis.Proofs.Text.Utf8
import Mathlib.Data.List.Basic

/-!
# What an address part stands for

> **writing characters as percent groups does not change what an address part stands for**
> (`Net.Percent.decodeText?_encode`), and **a part stands for itself exactly when it has no group**
> (`Net.Percent.decodeText?_eq_self_iff`).

Decoding is about bytes and encoding about characters, so both are brought to characters first:
`bytes` is what a list of characters is decoded to. It follows the characters from left to right and
takes three at a group, one elsewhere; that is the induction of this module, `group_induction`. The
one place that needs a look at what comes next is a `%` that begins no group: it must not begin one
after its neighbours have been encoded either, which holds since an encoded character begins with
`%` and that is no digit.
-/

set_option autoImplicit false

namespace Chassis.Net.Percent

open Text.Utf8

/-! ## Groups -/

def IsDigit (c : Char) : Prop := (hexValue? c).isSome = true

/-- Two hexadecimal digits come first. -/
def StartsDigits : List Char → Prop
  | a :: b :: _ => IsDigit a ∧ IsDigit b
  | _ => False

/-- Somewhere two hexadecimal digits come after a percent sign. -/
def HasGroup : List Char → Prop
  | [] => False
  | c :: cs => c = '%' ∧ StartsDigits cs ∨ HasGroup cs

instance (c : Char) : Decidable (IsDigit c) :=
  inferInstanceAs (Decidable (_ = true))

instance : ∀ cs : List Char, Decidable (StartsDigits cs)
  | [] | [_] => isFalse id
  | a :: b :: _ => inferInstanceAs (Decidable (IsDigit a ∧ IsDigit b))

instance decidableHasGroup : ∀ cs : List Char, Decidable (HasGroup cs)
  | [] => isFalse id
  | c :: cs =>
    have := decidableHasGroup cs
    inferInstanceAs (Decidable (c = '%' ∧ StartsDigits cs ∨ HasGroup cs))

/-- Characters are gone through as they are decoded: a group at once, and any other character on its
own. -/
@[elab_as_elim]
theorem group_induction {motive : List Char → Prop} (nil : motive [])
    (other : ∀ c cs, c ≠ '%' → motive cs → motive (c :: cs))
    (group : ∀ a b cs, IsDigit a → IsDigit b → motive cs → motive ('%' :: a :: b :: cs))
    (mark : ∀ cs, ¬ StartsDigits cs → motive cs → motive ('%' :: cs)) (cs : List Char) :
    motive cs := by
  match cs with
  | [] => exact nil
  | c :: cs =>
    by_cases hc : c = '%'
    case neg => exact other c cs hc (group_induction nil other group mark cs)
    subst hc
    match cs with
    | [] => exact mark [] id nil
    | [a] => exact mark [a] id (group_induction nil other group mark [a])
    | a :: b :: cs =>
      by_cases hdigits : IsDigit a ∧ IsDigit b
      · exact group a b cs hdigits.1 hdigits.2 (group_induction nil other group mark cs)
      · exact mark (a :: b :: cs) hdigits (group_induction nil other group mark (a :: b :: cs))
termination_by cs.length

/-! ## Digits -/

theorem ascii_of_isDigit {c : Char} (h : IsDigit c) : c.toNat < 0x80 := by
  by_contra hge
  have hnone : hexValue? c = none := by
    unfold hexValue?
    simp only [Char.le_def, UInt32.le_iff_toNat_le]
    have htoNat : c.val.toNat = c.toNat := rfl
    simp only [htoNat]
    rw [if_neg (by simp; omega), if_neg (by simp; omega), if_neg (by simp; omega)]
  rw [IsDigit, hnone] at h
  cases h

theorem digit?_toUInt8 {c : Char} (h : c.toNat < 0x80) : digit? c.toNat.toUInt8 = hexValue? c := by
  rw [digit?, toNat_toUInt8 (by omega), Char.ofNat_toNat]

/-- A byte beyond ASCII is no digit. -/
theorem ascii_of_digit? {b : UInt8} {n : Nat} (h : digit? b = some n) : b.toNat < 0x80 := by
  have hascii := ascii_of_isDigit (c := Char.ofNat b.toNat) (by rw [IsDigit, ← digit?, h]; rfl)
  rwa [toNat_ofNat_byte] at hascii

theorem hexValue?_upperDigit : ∀ n < 16, hexValue? (upperDigit n) = some n := by
  decide

/-! ## What characters are decoded to -/

/-- The bytes that characters stand for. -/
def bytes (cs : List Char) : List UInt8 := decode (encodeChars cs)

theorem decodeText?_ofList (cs : List Char) :
    decodeText? (String.ofList cs) = decode? (bytes cs) := by
  rw [decodeText?, Text.Utf8.encode, String.toList_ofList, bytes]

theorem decode_cons_of_ne {b : UInt8} (h : b ≠ 0x25) (bs : List UInt8) :
    decode (b :: bs) = b :: decode bs := by
  match bs with
  | [] => rfl
  | [_] => rfl
  | _ :: _ :: _ => simp only [decode, if_neg h]

theorem decode_append_of_ne {bs : List UInt8} (h : ∀ b ∈ bs, b ≠ 0x25) (bs' : List UInt8) :
    decode (bs ++ bs') = bs ++ decode bs' := by
  induction bs with
  | nil => rfl
  | cons b bs ih =>
    rw [List.cons_append, decode_cons_of_ne (h b List.mem_cons_self),
      ih fun b' hb' => h b' (List.mem_cons_of_mem b hb'), List.cons_append]

theorem ne_percent_of_mem_encodeChar {c : Char} (hc : c ≠ '%') {b : UInt8}
    (hb : b ∈ Text.Utf8.encodeChar c) : b ≠ 0x25 := by
  by_cases hascii : c.toNat < 0x80
  · rw [encodeChar_ascii hascii, List.mem_singleton] at hb
    rintro rfl
    refine hc (Char.toNat_inj.1 ?_)
    rw [← toNat_toUInt8 (show c.toNat < 256 by omega), ← hb]
    rfl
  · rintro rfl
    exact absurd (le_of_mem_encodeChar (Nat.not_lt.1 hascii) hb) (by decide)

theorem bytes_cons_of_ne {c : Char} (h : c ≠ '%') (cs : List Char) :
    bytes (c :: cs) = Text.Utf8.encodeChar c ++ bytes cs := by
  rw [bytes, encodeChars_cons, decode_append_of_ne fun b hb => ne_percent_of_mem_encodeChar h hb,
    bytes]

theorem encodeChars_percent (cs : List Char) : encodeChars ('%' :: cs) = 0x25 :: encodeChars cs :=
  rfl

theorem encodeChars_ascii_cons {c : Char} (h : c.toNat < 0x80) (cs : List Char) :
    encodeChars (c :: cs) = c.toNat.toUInt8 :: encodeChars cs := by
  rw [encodeChars_cons, encodeChar_ascii h, List.singleton_append]

theorem bytes_group {a b : Char} {high low : Nat} (ha : hexValue? a = some high)
    (hb : hexValue? b = some low) (cs : List Char) :
    bytes ('%' :: a :: b :: cs) = (high * 16 + low).toUInt8 :: bytes cs := by
  have hascii : ∀ {c : Char} {n : Nat}, hexValue? c = some n → c.toNat < 0x80 := fun h =>
    ascii_of_isDigit (by rw [IsDigit, h]; rfl)
  rw [bytes, encodeChars_percent, encodeChars_ascii_cons (hascii ha),
    encodeChars_ascii_cons (hascii hb), decode, if_pos rfl, byte?, digit?_toUInt8 (hascii ha),
    digit?_toUInt8 (hascii hb), ha, hb]
  rfl

/-- A byte of ASCII comes from a character of its own. -/
theorem exists_of_encodeChars_eq_cons {cs : List Char} {b : UInt8} {bs : List UInt8}
    (h : encodeChars cs = b :: bs) (hb : b.toNat < 0x80) :
    ∃ c cs', cs = c :: cs' ∧ b = c.toNat.toUInt8 ∧ c.toNat < 0x80 ∧ bs = encodeChars cs' := by
  cases cs with
  | nil => cases h
  | cons c cs =>
    have hascii : c.toNat < 0x80 := by
      by_contra hge
      obtain ⟨b', bs', hc⟩ := List.exists_cons_of_ne_nil (Text.Utf8.encodeChar_ne_nil c)
      rw [encodeChars_cons, hc] at h
      obtain rfl := (List.cons.inj h).1
      have := le_of_mem_encodeChar (Nat.not_lt.1 hge) (hc ▸ List.mem_cons_self)
      omega
    rw [encodeChars_ascii_cons hascii] at h
    obtain ⟨hhead, htail⟩ := List.cons.inj h
    exact ⟨c, cs, rfl, hhead.symm, hascii, htail.symm⟩

theorem bytes_percent {cs : List Char} (h : ¬ StartsDigits cs) :
    bytes ('%' :: cs) = 0x25 :: bytes cs := by
  rw [bytes, bytes, encodeChars_percent]
  match hbs : encodeChars cs with
  | [] => rfl
  | [_] => rfl
  | x :: y :: bs =>
    have hnone : byte? x y = none := by
      rw [byte?]
      split
      case h_2 => rfl
      case h_1 high low hx hy =>
        obtain ⟨a, cs', rfl, rfl, ha, hrest⟩ :=
          exists_of_encodeChars_eq_cons hbs (ascii_of_digit? hx)
        obtain ⟨b, cs'', rfl, rfl, hb, -⟩ :=
          exists_of_encodeChars_eq_cons hrest.symm (ascii_of_digit? hy)
        rw [digit?_toUInt8 ha] at hx
        rw [digit?_toUInt8 hb] at hy
        exact absurd ⟨by rw [IsDigit, hx]; rfl, by rw [IsDigit, hy]; rfl⟩ h
    rw [decode, if_pos rfl, hnone]

/-! ## Encoding -/

/-- Neither a percent sign nor a digit is written as a group, so that groups stay groups. -/
def KeepsGroups (isEscaped : Char → Bool) : Prop :=
  ∀ c, c = '%' ∨ IsDigit c → encodeChar isEscaped c = [c]

theorem bytes_groups (bs : List UInt8) (cs : List Char) :
    bytes (bs.flatMap group ++ cs) = bs ++ bytes cs := by
  induction bs with
  | nil => rfl
  | cons b bs ih =>
    have hb := b.toNat_lt
    have hgroup : group b ++ (bs.flatMap group ++ cs) =
      '%' :: upperDigit (b.toNat / 16) :: upperDigit (b.toNat % 16) ::
        (bs.flatMap group ++ cs) := rfl
    have hbyte : (b.toNat / 16 * 16 + b.toNat % 16).toUInt8 = b := by
      rw [show b.toNat / 16 * 16 + b.toNat % 16 = b.toNat by omega, Nat.toUInt8_eq,
        UInt8.ofNat_toNat]
    rw [List.flatMap_cons, List.append_assoc, hgroup,
      bytes_group (hexValue?_upperDigit _ (by omega)) (hexValue?_upperDigit _ (by omega)), hbyte,
      ih, List.cons_append]

variable {isEscaped : Char → Bool}

theorem encode_cons (c : Char) (cs : List Char) :
    encode isEscaped (c :: cs) = encodeChar isEscaped c ++ encode isEscaped cs :=
  List.flatMap_cons

theorem encode_cons_of_keepsGroups (h : KeepsGroups isEscaped) {c : Char}
    (hc : c = '%' ∨ IsDigit c) (cs : List Char) :
    encode isEscaped (c :: cs) = c :: encode isEscaped cs := by
  rw [encode_cons, h c hc, List.singleton_append]

/-- A character is written as itself, or as groups. -/
theorem encodeChar_cases (isEscaped : Char → Bool) (c : Char) :
    encodeChar isEscaped c = [c] ∨
      encodeChar isEscaped c = (Text.Utf8.encodeChar c).flatMap group := by
  rw [encodeChar]
  split
  · exact .inr rfl
  · exact .inl rfl

theorem encodeChar_ne_nil (c : Char) : encodeChar isEscaped c ≠ [] := by
  rcases encodeChar_cases isEscaped c with h | h
  · rw [h]
    exact List.cons_ne_nil c []
  · obtain ⟨b, bs, hbs⟩ := List.exists_cons_of_ne_nil (Text.Utf8.encodeChar_ne_nil c)
    rw [h, hbs]
    exact List.cons_ne_nil _ _

theorem encode_eq_nil_iff {cs : List Char} : encode isEscaped cs = [] ↔ cs = [] := by
  cases cs with
  | nil => exact iff_of_true rfl rfl
  | cons c cs =>
    rw [encode_cons, List.append_eq_nil_iff]
    exact iff_of_false (fun h => encodeChar_ne_nil c h.1) (List.cons_ne_nil c cs)

theorem bytes_encodeChar {c : Char} (hc : c ≠ '%') (cs : List Char) :
    bytes (encodeChar isEscaped c ++ cs) = Text.Utf8.encodeChar c ++ bytes cs := by
  rcases encodeChar_cases isEscaped c with h | h
  · rw [h, List.singleton_append, bytes_cons_of_ne hc]
  · rw [h, bytes_groups]

/-- The first of the encoded characters is a digit only if it was one before. -/
theorem exists_of_encode_eq_cons {cs : List Char} {a : Char} {rest : List Char}
    (h : encode isEscaped cs = a :: rest) (ha : IsDigit a) :
    ∃ cs', cs = a :: cs' ∧ rest = encode isEscaped cs' := by
  cases cs with
  | nil => cases h
  | cons c cs =>
    rw [encode_cons] at h
    rcases encodeChar_cases isEscaped c with hc | hc
    · rw [hc, List.singleton_append] at h
      obtain ⟨rfl, rfl⟩ := List.cons.inj h
      exact ⟨cs, rfl, rfl⟩
    · obtain ⟨b, bs, hbs⟩ := List.exists_cons_of_ne_nil (Text.Utf8.encodeChar_ne_nil c)
      rw [hc, hbs] at h
      obtain rfl := (List.cons.inj h).1
      exact absurd ha (by decide)

theorem startsDigits_of_encode {cs : List Char} (h : StartsDigits (encode isEscaped cs)) :
    StartsDigits cs := by
  match hcs : encode isEscaped cs with
  | [] | [_] => rw [hcs] at h; exact h.elim
  | a :: b :: rest =>
    rw [hcs] at h
    obtain ⟨cs', rfl, hrest⟩ := exists_of_encode_eq_cons hcs h.1
    obtain ⟨cs'', rfl, -⟩ := exists_of_encode_eq_cons hrest.symm h.2
    exact h

theorem bytes_encode (h : KeepsGroups isEscaped) (cs : List Char) :
    bytes (encode isEscaped cs) = bytes cs := by
  induction cs using group_induction with
  | nil => rfl
  | other c cs hc ih => rw [encode_cons, bytes_encodeChar hc, ih, bytes_cons_of_ne hc]
  | group a b cs ha hb ih =>
    obtain ⟨high, hhigh⟩ := Option.isSome_iff_exists.1 ha
    obtain ⟨low, hlow⟩ := Option.isSome_iff_exists.1 hb
    rw [encode_cons_of_keepsGroups h (.inl rfl), encode_cons_of_keepsGroups h (.inr ha),
      encode_cons_of_keepsGroups h (.inr hb), bytes_group hhigh hlow, bytes_group hhigh hlow, ih]
  | mark cs hcs ih =>
    rw [encode_cons_of_keepsGroups h (.inl rfl), bytes_percent (mt startsDigits_of_encode hcs),
      bytes_percent hcs, ih]

/-- **Writing characters as groups does not change what a part stands for.** -/
theorem decodeText?_encode (h : KeepsGroups isEscaped) (cs : List Char) :
    decodeText? (String.ofList (encode isEscaped cs)) = decodeText? (String.ofList cs) := by
  rw [decodeText?_ofList, decodeText?_ofList, bytes_encode h]

/-! ## Parts that stand for themselves -/

/-- Bytes lead no more characters than they were decoded from, and fewer if there was a group. -/
theorem countP_isLead_bytes (cs : List Char) :
    (bytes cs).countP isLead ≤ cs.length ∧
      (HasGroup cs → (bytes cs).countP isLead < cs.length) := by
  induction cs using group_induction with
  | nil => exact ⟨Nat.le_refl 0, False.elim⟩
  | other c cs hc ih =>
    rw [bytes_cons_of_ne hc, List.countP_append, countP_isLead_encodeChar, List.length_cons]
    refine ⟨by omega, fun hgroup => ?_⟩
    have := ih.2 (hgroup.resolve_left fun h => hc h.1)
    omega
  | group a b cs ha hb ih =>
    obtain ⟨high, hhigh⟩ := Option.isSome_iff_exists.1 ha
    obtain ⟨low, hlow⟩ := Option.isSome_iff_exists.1 hb
    rw [bytes_group hhigh hlow, List.length_cons, List.length_cons, List.length_cons,
      List.countP_cons]
    refine ⟨?_, fun _ => ?_⟩ <;> split <;> omega
  | mark cs hcs ih =>
    rw [bytes_percent hcs, List.countP_cons_of_pos (by decide), List.length_cons]
    refine ⟨by omega, fun hgroup => ?_⟩
    have := ih.2 (hgroup.resolve_left fun h => hcs h.2)
    omega

theorem bytes_of_not_hasGroup {cs : List Char} (h : ¬ HasGroup cs) : bytes cs = encodeChars cs := by
  induction cs with
  | nil => rfl
  | cons c cs ih =>
    obtain ⟨hstart, hrest⟩ := not_or.1 h
    by_cases hc : c = '%'
    · subst hc
      rw [bytes_percent fun hcs => hstart ⟨rfl, hcs⟩, ih hrest, encodeChars_percent]
    · rw [bytes_cons_of_ne hc, ih hrest, encodeChars_cons]

/-- **A part has at least as many characters as the text that it stands for.** -/
theorem length_le_of_decodeText? {s t : String} (h : decodeText? s = some t) :
    t.toList.length ≤ s.toList.length := by
  rw [← String.ofList_toList (s := s), decodeText?_ofList] at h
  exact Nat.le_trans (length_le_of_decode? h) (countP_isLead_bytes s.toList).1

/-- **A part stands for itself exactly when it has no group.** -/
theorem decodeText?_eq_self_iff (s : String) : decodeText? s = some s ↔ ¬ HasGroup s.toList := by
  have hbytes := decodeText?_ofList s.toList
  rw [String.ofList_toList] at hbytes
  rw [hbytes]
  constructor
  · intro h hgroup
    have hle := length_le_of_decode? h
    have hlt := (countP_isLead_bytes s.toList).2 hgroup
    omega
  · intro h
    rw [bytes_of_not_hasGroup h, decode?_encodeChars, String.ofList_toList]

end Chassis.Net.Percent
