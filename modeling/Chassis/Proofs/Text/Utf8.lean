import Chassis.Text.Utf8

/-!
# Reading back UTF-8

The decoder is one machine that looks at a byte at a time, the encoder writes a character at once.
The fact every wire format stands on is that the first undoes the second:

> **a text is read back from its bytes**: `decode? (encode s) = some s`.

It rests on `units_encodeChar`: from the state between two characters, the bytes of a character
complete exactly that character, whatever follows. The four lengths are four cases, and the narrower
limits behind some first bytes (no overlong form, no surrogate) are what `Char` promises about its
number.

Of any other bytes only a bound is known: each character of a text was begun by a byte of its own
(`length_le_of_decode?`).
-/

set_option autoImplicit false

namespace Chassis.Text.Utf8

/-! ## The machine, a byte at a time -/

/-- The number of a character is that of a scalar value: no surrogate, and below `0x110000`. -/
theorem toNat_valid (c : Char) :
    c.toNat < 0xD800 ∨ (0xDFFF < c.toNat ∧ c.toNat < 0x110000) := by
  have h := c.valid
  simpa [UInt32.isValidChar, Nat.isValidChar] using h

theorem toNat_toUInt8 {n : Nat} (h : n < 256) : n.toUInt8.toNat = n := by
  simp only [Nat.toUInt8_eq, UInt8.toNat_ofNat']
  omega

/-- A byte is the number of a character. -/
theorem toNat_ofNat_byte (b : UInt8) : (Char.ofNat b.toNat).toNat = b.toNat := by
  have hlt := b.toNat_lt
  rw [Char.ofNat, dif_pos (.inl (by omega))]
  rfl

theorem units_cons (state : State) (b : UInt8) (bs : List UInt8) :
    units state (b :: bs) = (step state b.toNat).1 ++ units (step state b.toNat).2 bs := by
  cases state <;> rfl

/-- A byte that an unfinished character is waiting for, when it waits for more. -/
theorem step_more {owed low high value b : Nat} (hl : low ≤ b) (hh : b ≤ high) (ho : 1 < owed) :
    step (some ⟨owed, low, high, value⟩) b =
      ([], some ⟨owed - 1, 0x80, 0xBF, value * 0x40 + (b - 0x80)⟩) := by
  simp only [step]
  rw [if_pos ⟨hl, hh⟩, if_neg (by omega)]

/-- The last byte that an unfinished character is waiting for. -/
theorem step_last {owed low high value b : Nat} (hl : low ≤ b) (hh : b ≤ high) (ho : owed ≤ 1) :
    step (some ⟨owed, low, high, value⟩) b =
      ([some (Char.ofNat (value * 0x40 + (b - 0x80)))], none) := by
  simp only [step]
  rw [if_pos ⟨hl, hh⟩, if_pos ho]

theorem first_two {b : Nat} (hl : 0xC2 ≤ b) (hh : b < 0xE0) :
    first b = ([], some ⟨1, 0x80, 0xBF, b - 0xC0⟩) := by
  unfold first
  rw [if_neg (by omega), if_neg (by omega), if_pos hh]

/-- The first of three bytes; two of them narrow what may come next. -/
theorem first_three {b : Nat} (hl : 0xE0 ≤ b) (hh : b < 0xF0) :
    first b = ([], some ⟨2, if b = 0xE0 then 0xA0 else 0x80, if b = 0xED then 0x9F else 0xBF,
      b - 0xE0⟩) := by
  unfold first
  rw [if_neg (by omega), if_neg (by omega), if_neg (by omega)]
  split
  case isTrue h => subst h; rfl
  split
  case isTrue h => subst h; rfl
  case isFalse => rfl

/-- The first of four bytes; two of them narrow what may come next. -/
theorem first_four {b : Nat} (hl : 0xF0 ≤ b) (hh : b ≤ 0xF4) :
    first b = ([], some ⟨3, if b = 0xF0 then 0x90 else 0x80, if b = 0xF4 then 0x8F else 0xBF,
      b - 0xF0⟩) := by
  unfold first
  rw [if_neg (by omega), if_neg (by omega), if_neg (by omega), if_neg (by omega),
    if_neg (by omega), if_neg (by omega)]
  split
  case isTrue h => subst h; rfl
  split
  case isTrue h => rw [if_neg (by omega)]
  case isFalse h =>
    have hb : b = 0xF4 := by omega
    subst hb
    rfl

/-! ## Characters and texts -/

/-- The bytes of a character complete that character and leave nothing open. -/
theorem units_encodeChar (c : Char) (bs : List UInt8) :
    units none (encodeChar c ++ bs) = some c :: units none bs := by
  have hv := toNat_valid c
  have hc : Char.ofNat c.toNat = c := Char.ofNat_toNat c
  generalize hn : c.toNat = n at hv hc
  unfold encodeChar
  simp only [hn]
  -- One, two, three and four bytes. The next byte is within the narrower limits behind `0xE0` and
  -- `0xF0` since a shorter form does not do, behind `0xED` since `n` is no surrogate, and behind
  -- `0xF4` since `n` is below `0x110000`.
  split
  case isTrue h1 =>
    simp only [List.cons_append, List.nil_append, units_cons, toNat_toUInt8 (show n < 256 by omega),
      step, first, if_pos h1, hc]
  split
  case isTrue h1 h2 =>
    simp only [List.cons_append, List.nil_append, units_cons]
    rw [toNat_toUInt8 (by omega), toNat_toUInt8 (by omega)]
    rw [show step none (0xC0 + n / 0x40) = _ from first_two (by omega) (by omega)]
    rw [step_last (by omega) (by omega) (by omega)]
    rw [show (0xC0 + n / 0x40 - 0xC0) * 0x40 + (0x80 + n % 0x40 - 0x80) = n by omega, hc]
    rfl
  split
  case isTrue h1 h2 h3 =>
    simp only [List.cons_append, List.nil_append, units_cons]
    rw [toNat_toUInt8 (by omega), toNat_toUInt8 (by omega), toNat_toUInt8 (by omega)]
    rw [show step none (0xE0 + n / 0x1000) = _ from first_three (by omega) (by omega)]
    rw [step_more (by split <;> omega) (by split <;> omega) (by omega)]
    rw [step_last (by omega) (by omega) (by omega)]
    rw [show ((0xE0 + n / 0x1000 - 0xE0) * 0x40 + (0x80 + n / 0x40 % 0x40 - 0x80)) * 0x40 +
      (0x80 + n % 0x40 - 0x80) = n by omega, hc]
    rfl
  case isFalse h1 h2 h3 =>
    simp only [List.cons_append, List.nil_append, units_cons]
    rw [toNat_toUInt8 (by omega), toNat_toUInt8 (by omega), toNat_toUInt8 (by omega),
      toNat_toUInt8 (by omega)]
    rw [show step none (0xF0 + n / 0x40000) = _ from first_four (by omega) (by omega)]
    rw [step_more (by split <;> omega) (by split <;> omega) (by omega)]
    rw [step_more (by omega) (by omega) (by omega)]
    rw [step_last (by omega) (by omega) (by omega)]
    rw [show (((0xF0 + n / 0x40000 - 0xF0) * 0x40 + (0x80 + n / 0x1000 % 0x40 - 0x80)) * 0x40 +
      (0x80 + n / 0x40 % 0x40 - 0x80)) * 0x40 + (0x80 + n % 0x40 - 0x80) = n by omega, hc]
    rfl

/-- The bytes of characters complete exactly those characters. -/
theorem units_encodeChars (cs : List Char) : units none (encodeChars cs) = cs.map some := by
  induction cs with
  | nil => rfl
  | cons c cs ih =>
    rw [encodeChars, List.flatMap_cons, units_encodeChar]
    rw [show cs.flatMap encodeChar = encodeChars cs from rfl, ih]
    rfl

theorem allSome_map_some {α : Type} (xs : List α) : allSome (xs.map some) = some xs := by
  induction xs with
  | nil => rfl
  | cons x xs ih => simp [allSome, ih]

theorem decode?_encodeChars (cs : List Char) :
    decode? (encodeChars cs) = some (String.ofList cs) := by
  simp [decode?, decodeChars?, units_encodeChars, allSome_map_some]

/-- **A text is read back from its bytes.** -/
theorem decode?_encode (s : String) : decode? (encode s) = some s := by
  rw [encode, decode?_encodeChars, String.ofList_toList]

/-- Different texts have different bytes. -/
theorem encode_injective {s t : String} (h : encode s = encode t) : s = t := by
  have hdecode := decode?_encode s
  rw [h, decode?_encode] at hdecode
  exact (Option.some.inj hdecode).symm

/-! ## The bytes of characters -/

@[simp] theorem encodeChars_nil : encodeChars [] = [] := rfl

@[simp] theorem encodeChars_append (cs ds : List Char) :
    encodeChars (cs ++ ds) = encodeChars cs ++ encodeChars ds :=
  List.flatMap_append

theorem encodeChars_cons (c : Char) (cs : List Char) :
    encodeChars (c :: cs) = encodeChar c ++ encodeChars cs := rfl

theorem encodeChar_ascii {c : Char} (h : c.toNat < 0x80) : encodeChar c = [c.toNat.toUInt8] := by
  simp only [encodeChar]
  rw [if_pos h]

theorem encodeChars_of_ascii {cs : List Char} (h : ∀ c ∈ cs, c.toNat < 0x80) :
    encodeChars cs = cs.map fun c => c.toNat.toUInt8 := by
  induction cs with
  | nil => rfl
  | cons c cs ih =>
    rw [encodeChars_cons, encodeChar_ascii (h c List.mem_cons_self),
      ih fun c' hc' => h c' (List.mem_cons_of_mem c hc')]
    rfl

/-- No byte of a character beyond ASCII is one of ASCII. -/
theorem le_of_mem_encodeChar {c : Char} (h : 0x80 ≤ c.toNat) {b : UInt8} (hb : b ∈ encodeChar c) :
    0x80 ≤ b.toNat := by
  have hv := toNat_valid c
  generalize hn : c.toNat = n at h hv
  unfold encodeChar at hb
  simp only [hn] at hb
  rw [if_neg (by omega)] at hb
  split at hb
  case isTrue =>
    simp only [List.mem_cons, List.not_mem_nil, or_false] at hb
    rcases hb with rfl | rfl <;> rw [toNat_toUInt8 (by omega)] <;> omega
  split at hb
  case isTrue =>
    simp only [List.mem_cons, List.not_mem_nil, or_false] at hb
    rcases hb with rfl | rfl | rfl <;> rw [toNat_toUInt8 (by omega)] <;> omega
  case isFalse =>
    simp only [List.mem_cons, List.not_mem_nil, or_false] at hb
    rcases hb with rfl | rfl | rfl | rfl <;> rw [toNat_toUInt8 (by omega)] <;> omega

/-! ## How many characters bytes can hold -/

/-- The byte does not go on with a character that was begun before. -/
def isLead (b : UInt8) : Bool := b.toNat < 0x80 || 0xBF < b.toNat

/-- An unfinished character waits only for bytes that go on with it. -/
def State.IsOpen (state : State) : Prop :=
  ∀ p : Pending, state = some p → 0x80 ≤ p.low ∧ p.high ≤ 0xBF

/-- A byte is refused, or the characters that are complete or begun do not become more than it
leads. -/
def Advances (state : State) (b : UInt8) (result : List (Option Char) × State) : Prop :=
  none ∈ result.1 ∨ result.2.IsOpen ∧
    result.1.length + result.2.isSome.toNat ≤ state.isSome.toNat + (isLead b).toNat

theorem State.isOpen_none : State.IsOpen none := nofun

theorem State.isOpen_some {owed low high value : Nat} (hl : 0x80 ≤ low) (hh : high ≤ 0xBF) :
    State.IsOpen (some ⟨owed, low, high, value⟩) := by
  rintro p ⟨⟩
  exact ⟨hl, hh⟩

theorem advances_first (b : UInt8) : Advances none b (first b.toNat) := by
  by_cases hascii : b.toNat < 0x80
  · rw [first, if_pos hascii]
    exact .inr ⟨State.isOpen_none, by simp [isLead, hascii]⟩
  by_cases hstray : b.toNat < 0xC2
  · rw [first, if_neg hascii, if_pos hstray]
    exact .inl List.mem_cons_self
  have hlead : isLead b = true := by simp [isLead]; omega
  rw [Advances, hlead]
  -- The first of two, three and four bytes each begin one character.
  by_cases htwo : b.toNat < 0xE0
  · rw [first_two (by omega) htwo]
    exact .inr ⟨State.isOpen_some (by omega) (by omega), Nat.le_refl 1⟩
  by_cases hthree : b.toNat < 0xF0
  · rw [first_three (by omega) hthree]
    exact .inr ⟨State.isOpen_some (by split <;> omega) (by split <;> omega), Nat.le_refl 1⟩
  by_cases hfour : b.toNat ≤ 0xF4
  · rw [first_four (by omega) hfour]
    exact .inr ⟨State.isOpen_some (by split <;> omega) (by split <;> omega), Nat.le_refl 1⟩
  · unfold first
    rw [if_neg (by omega), if_neg (by omega), if_neg (by omega), if_neg (by omega),
      if_neg (by omega), if_neg (by omega), if_neg (by omega), if_neg (by omega),
      if_neg (by omega)]
    exact .inl List.mem_cons_self

theorem advances_step {state : State} (hopen : state.IsOpen) (b : UInt8) :
    Advances state b (step state b.toNat) := by
  cases state with
  | none => exact advances_first b
  | some p =>
    obtain ⟨hl, hh⟩ := hopen p rfl
    simp only [step]
    split
    case isFalse => exact .inl List.mem_cons_self
    split
    case isTrue => exact .inr ⟨State.isOpen_none, by simp⟩
    case isFalse => exact .inr ⟨State.isOpen_some (by omega) (by omega), by simp⟩

theorem allSome_eq_none {α : Type} {xs : List (Option α)} (h : none ∈ xs) : allSome xs = none := by
  induction xs with
  | nil => cases h
  | cons x xs ih =>
    cases x with
    | none => rfl
    | some a =>
      have hxs : none ∈ xs := (List.mem_cons.1 h).resolve_left nofun
      rw [allSome, ih hxs, Option.map_none]

theorem length_of_allSome {α : Type} {xs : List (Option α)} {as : List α}
    (h : allSome xs = some as) : as.length = xs.length := by
  induction xs generalizing as with
  | nil =>
    obtain rfl := Option.some.inj h
    rfl
  | cons x xs ih =>
    cases x with
    | none => cases h
    | some a =>
      obtain ⟨as', has', rfl⟩ := Option.map_eq_some_iff.1 h
      exact congrArg (· + 1) (ih has')

/-- Bytes of which none is refused complete at most the characters that they lead and one that was
begun before. -/
theorem length_units_le (bs : List UInt8) {state : State} (hopen : state.IsOpen)
    (h : none ∉ units state bs) :
    (units state bs).length ≤ state.isSome.toNat + bs.countP isLead := by
  induction bs generalizing state with
  | nil =>
    cases state with
    | none => exact Nat.zero_le _
    | some p => exact absurd List.mem_cons_self h
  | cons b bs ih =>
    rw [units_cons] at h ⊢
    rw [List.mem_append, not_or] at h
    obtain ⟨hopen', hstep⟩ := (advances_step hopen b).resolve_left h.1
    have hrest := ih hopen' h.2
    rw [List.length_append, List.countP_cons]
    cases hlead : isLead b with
    | true =>
      rw [hlead, Bool.toNat_true] at hstep
      rw [if_pos rfl]
      omega
    | false =>
      rw [hlead, Bool.toNat_false] at hstep
      rw [if_neg Bool.false_ne_true]
      omega

/-- **A text has at most as many characters as there are bytes that lead one.** -/
theorem length_le_of_decode? {bs : List UInt8} {s : String} (h : decode? bs = some s) :
    s.toList.length ≤ bs.countP isLead := by
  obtain ⟨cs, hcs, rfl⟩ := Option.map_eq_some_iff.1 h
  have hnone : none ∉ units none bs := fun hmem => by
    rw [decodeChars?, allSome_eq_none hmem] at hcs
    cases hcs
  have hle := length_units_le bs State.isOpen_none hnone
  rw [String.toList_ofList, length_of_allSome hcs]
  simpa using hle

/-- The bytes of a character lead one character. -/
theorem countP_isLead_encodeChar (c : Char) : (encodeChar c).countP isLead = 1 := by
  have hv := toNat_valid c
  have hlead {n : Nat} (hn : n < 256) (h : n < 0x80 ∨ 0xBF < n) : isLead n.toUInt8 = true := by
    simp [isLead, toNat_toUInt8 hn, h]
  have htail {n : Nat} (hl : 0x80 ≤ n) (hh : n ≤ 0xBF) : ¬ isLead n.toUInt8 = true := by
    simp [isLead, toNat_toUInt8 (show n < 256 by omega)]
    omega
  generalize hn : c.toNat = n at hv
  unfold encodeChar
  simp only [hn]
  split
  · rw [List.countP_cons_of_pos (hlead (by omega) (by omega))]
    rfl
  split
  · rw [List.countP_cons_of_pos (hlead (by omega) (by omega)),
      List.countP_cons_of_neg (htail (by omega) (by omega))]
    rfl
  split
  · rw [List.countP_cons_of_pos (hlead (by omega) (by omega)),
      List.countP_cons_of_neg (htail (by omega) (by omega)),
      List.countP_cons_of_neg (htail (by omega) (by omega))]
    rfl
  · rw [List.countP_cons_of_pos (hlead (by omega) (by omega)),
      List.countP_cons_of_neg (htail (by omega) (by omega)),
      List.countP_cons_of_neg (htail (by omega) (by omega)),
      List.countP_cons_of_neg (htail (by omega) (by omega))]
    rfl

theorem encodeChar_ne_nil (c : Char) : encodeChar c ≠ [] := by
  intro h
  have hcount := countP_isLead_encodeChar c
  rw [h] at hcount
  cases hcount

/-! ## Hexadecimal digits of bytes -/

theorem hexValue?_hexDigit : ∀ n < 16, hexValue? (hexDigit n) = some n := by
  decide

end Chassis.Text.Utf8
