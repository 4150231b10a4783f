import Chassis.Proofs.Json.Grammar
import Chassis.Proofs.Json.Number
import Mathlib.Data.List.TakeWhile

/-!
# What a reader has ahead

What a reader of JSON does depends on the bytes ahead alone, line and column only say where a fault
is. So a cursor is known by its `rest`, and a reader by what it gives and what it leaves ahead:
`Passes` says it of a step that gives nothing, `Yields` of one that gives a value or fails.

Skipping white space or digits leaves what `dropWhile` leaves (`Cursor.rest_skipWhile_eq`), and this
is the bridge to the tokens of the grammar, which are made of what `takeWhile` takes.
-/

set_option autoImplicit false

namespace Chassis.Json

open Text Text.Utf8

/-- The step goes well and leaves the bytes of `tail` ahead. -/
def Passes (r : Except Fault Cursor) (tail : List UInt8) : Prop :=
  ∃ c, r = .ok c ∧ c.rest = tail

/-- The step gives what is told and leaves the bytes of `tail` ahead; it fails where nothing is
told. -/
def Yields {α : Type} (r : Except Fault (α × Cursor)) (a? : Option α) (tail : List UInt8) : Prop :=
  match a? with
  | some a => ∃ c, r = .ok (a, c) ∧ c.rest = tail
  | none => ∃ fault, r = .error fault

/-! ## What is ahead -/

theorem eq_of_ofNat_toNat {b : UInt8} {ch : Char} (h : Char.ofNat b.toNat = ch) :
    b = ch.toNat.toUInt8 := by
  rw [← h, toNat_ofNat_byte]
  simp

namespace Cursor

theorem exists_rest_of_peek? {c : Cursor} {ch : Char} (h : c.peek? = some ch) :
    ∃ t, c.rest = ch.toNat.toUInt8 :: t := by
  rw [peek?, Option.map_eq_some_iff] at h
  obtain ⟨b, hb, hch⟩ := h
  obtain ⟨t, ht⟩ := List.head?_eq_some_iff.1 hb
  exact ⟨t, by rw [ht, eq_of_ofNat_toNat hch]⟩

theorem rest_eq_cons_next {c : Cursor} {ch : Char} (h : c.peek? = some ch) :
    c.rest = ch.toNat.toUInt8 :: c.next.rest := by
  obtain ⟨t, ht⟩ := exists_rest_of_peek? h
  rw [next_rest ht, ht]

theorem rest_skipWhileFrom_eq (p : Char → Bool) (bs : List UInt8) (line column : Nat) :
    (skipWhileFrom p bs line column).rest = bs.dropWhile fun b => p (Char.ofNat b.toNat) := by
  induction bs generalizing line column with
  | nil => rfl
  | cons b bs ih =>
    rw [skipWhileFrom, List.dropWhile_cons]
    split
    · split
      · exact ih (line + 1) 0
      · exact ih line (column + 1)
    · rfl

theorem rest_skipWhile_eq (p : Char → Bool) (c : Cursor) :
    (c.skipWhile p).rest = c.rest.dropWhile fun b => p (Char.ofNat b.toNat) :=
  rest_skipWhileFrom_eq p c.rest c.line c.column

theorem length_next_lt (c : Cursor) : c.next.rest.length < c.rest.length + 1 := by
  rw [rest_next, List.length_tail]
  omega

theorem skipSpace_gap (gap : Gap) {c : Cursor} {b : UInt8} {t : List UInt8}
    (h : c.rest = gap.bytes ++ b :: t) (hb : isSpace (Char.ofNat b.toNat) = false) :
    c.skipSpace.rest = b :: t := by
  rw [skipSpace, rest_skipWhile_eq, h, List.dropWhile_append_of_pos gap.blank,
    List.dropWhile_cons_of_neg (by simp [hb])]

theorem skipSpace_gap_nil (gap : Gap) {c : Cursor} (h : c.rest = gap.bytes) :
    c.skipSpace.rest = [] := by
  rw [skipSpace, rest_skipWhile_eq, h]
  exact List.dropWhile_eq_nil_iff.2 gap.blank

/-- What is skipped in front of a token is white space. -/
theorem exists_gap (c : Cursor) : ∃ gap : Gap, c.rest = gap.bytes ++ c.skipSpace.rest := by
  refine ⟨⟨c.rest.takeWhile fun b => isSpace (Char.ofNat b.toNat), fun b hb => ?_⟩, ?_⟩
  · simpa using List.mem_takeWhile_imp hb
  · rw [skipSpace, rest_skipWhile_eq, List.takeWhile_append_dropWhile]

end Cursor

theorem readWord_eq_ok {ws : List Char} {c : Cursor} :
    ∀ {tail : List UInt8}, c.rest = ws.map (fun w => w.toNat.toUInt8) ++ tail →
      (∀ w ∈ ws, w.toNat < 256) → Passes (c.readWord ws) tail := by
  induction ws generalizing c with
  | nil => exact fun h _ => ⟨c, rfl, h⟩
  | cons w ws ih =>
    intro tail h hw
    have hp : c.peek? = some w := by
      rw [Cursor.peek?_cons h, toNat_toUInt8 (hw w List.mem_cons_self), Char.ofNat_toNat]
    simp only [Cursor.readWord, hp, ↓reduceIte]
    exact ih (Cursor.next_rest h) fun x hx => hw x (List.mem_cons_of_mem w hx)

theorem rest_of_readWord {ws : List Char} {c c' : Cursor} (h : c.readWord ws = .ok c') :
    c.rest = ws.map (fun w => w.toNat.toUInt8) ++ c'.rest := by
  induction ws generalizing c with
  | nil =>
    cases h
    rfl
  | cons w ws ih =>
    rw [Cursor.readWord] at h
    split at h
    case h_1 => cases h
    case h_2 b hp =>
      split at h
      case isTrue hb =>
        obtain ⟨t, ht⟩ := Cursor.exists_rest_of_peek? hp
        rw [ht, List.map_cons, ← hb, List.cons_append, ← ih h, Cursor.next_rest ht]
      case isFalse => cases h

/-! ## Digits -/

abbrev isDigitByte (b : UInt8) : Bool := (Char.ofNat b.toNat).isDigit

/-- The next byte is no digit. -/
def EndsDigits (tail : List UInt8) : Prop := ∀ b t, tail = b :: t → isDigitByte b = false

theorem EndsNumber.endsDigits {tail : List UInt8} (h : EndsNumber tail) : EndsDigits tail :=
  fun b t hb => (h b t hb).1

theorem endsDigits_exponent (e : Option Exponent) {tail : List UInt8} (ht : EndsDigits tail) :
    EndsDigits (Numeral.exponentBytes e ++ tail) := by
  cases e with
  | none => exact ht
  | some e =>
    intro b t hb
    obtain ⟨rfl, -⟩ := List.cons.inj hb
    rcases e.letter_eq with h | h
    · rw [h]; decide
    · rw [h]; decide

theorem endsDigits_fraction (f : Option Digits) (e : Option Exponent) {tail : List UInt8}
    (ht : EndsDigits tail) :
    EndsDigits (Numeral.fractionBytes f ++ (Numeral.exponentBytes e ++ tail)) := by
  cases f with
  | none => exact endsDigits_exponent e ht
  | some ds =>
    intro b t hb
    obtain ⟨rfl, -⟩ := List.cons.inj hb
    decide

theorem dropWhile_digits (ds : Digits) {tail : List UInt8} (ht : EndsDigits tail) :
    (ds.bytes ++ tail).dropWhile isDigitByte = tail := by
  rw [List.dropWhile_append_of_pos ds.digit]
  cases tail with
  | nil => rfl
  | cons b t => exact List.dropWhile_cons_of_neg (by simp [ht b t rfl])

theorem takeWhile_digits (ds : Digits) {tail : List UInt8} (ht : EndsDigits tail) :
    (ds.bytes ++ tail).takeWhile isDigitByte = ds.bytes := by
  rw [List.takeWhile_append_of_pos ds.digit]
  cases tail with
  | nil => simp
  | cons b t => rw [List.takeWhile_cons_of_neg (by simp [ht b t rfl]), List.append_nil]

namespace Cursor

theorem rest_skipDigits (c : Cursor) : c.skipDigits.rest = c.rest.dropWhile isDigitByte :=
  rest_skipWhile_eq Char.isDigit c

theorem skipDigits_digits (ds : Digits) {c : Cursor} {tail : List UInt8}
    (h : c.rest = ds.bytes ++ tail) (ht : EndsDigits tail) : c.skipDigits.rest = tail := by
  rw [rest_skipDigits, h, dropWhile_digits ds ht]

theorem atDigit_cons {c : Cursor} {b : UInt8} {t : List UInt8} (h : c.rest = b :: t) :
    c.atDigit = isDigitByte b := by
  rw [atDigit, peek?_cons h, Option.any_some]

theorem atDigit_eq_false {c : Cursor} : c.atDigit = false ↔ EndsDigits c.rest := by
  constructor
  · intro h b t hb
    rwa [atDigit_cons hb] at h
  · intro h
    cases hr : c.rest with
    | nil => rw [atDigit, peek?_nil hr]; rfl
    | cons b t => rw [atDigit_cons hr, h b t hr]

theorem skipDigits_of_atDigit {c : Cursor} (h : c.atDigit = false) : c.skipDigits = c := by
  cases hr : c.rest with
  | nil => exact skipWhile_nil hr
  | cons b t => exact skipWhile_cons hr (atDigit_eq_false.1 h b t hr)

theorem atDigit_digits (ds : Digits) {c : Cursor} {tail : List UInt8}
    (h : c.rest = ds.bytes ++ tail) : c.atDigit = true := by
  cases hb : ds.bytes with
  | nil => exact absurd hb ds.ne_nil
  | cons b t =>
    rw [hb] at h
    rw [atDigit_cons h]
    exact ds.digit b (by rw [hb]; exact List.mem_cons_self)

/-- Where a digit is ahead, there are digits, and skipping passes over them. -/
theorem exists_digits_of_atDigit {c : Cursor} (h : c.atDigit = true) :
    ∃ ds : Digits, ds.bytes = c.rest.takeWhile isDigitByte ∧
      c.rest = ds.bytes ++ c.skipDigits.rest := by
  cases hr : c.rest with
  | nil => rw [atDigit, peek?_nil hr] at h; cases h
  | cons b t =>
    rw [atDigit_cons hr] at h
    refine ⟨⟨(b :: t).takeWhile isDigitByte, fun x hx => ?_, ?_⟩, rfl, ?_⟩
    · simpa using List.mem_takeWhile_imp hx
    · rw [List.takeWhile_cons_of_pos h]
      exact List.cons_ne_nil b _
    · rw [rest_skipDigits, hr, List.takeWhile_append_dropWhile]

end Cursor

/-! ## One step after another -/

theorem Yields.bind {α β : Type} {r : Except Fault (α × Cursor)} {a? : Option α}
    {next tail : List UInt8} (hr : Yields r a? next)
    {k : α × Cursor → Except Fault (β × Cursor)} {b? : α → Option β}
    (hk : ∀ a c, c.rest = next → Yields (k (a, c)) (b? a) tail) :
    Yields (r >>= k) (a?.bind b?) tail := by
  cases a? with
  | none =>
    obtain ⟨fault, rfl⟩ := hr
    exact ⟨fault, rfl⟩
  | some a =>
    obtain ⟨c, rfl, hc⟩ := hr
    exact hk a c hc

theorem Passes.bind {β : Type} {r : Except Fault Cursor} {next tail : List UInt8}
    (hr : Passes r next) {k : Cursor → Except Fault (β × Cursor)} {b? : Option β}
    (hk : ∀ c, c.rest = next → Yields (k c) b? tail) : Yields (r >>= k) b? tail := by
  obtain ⟨c, rfl, hc⟩ := hr
  exact hk c hc

theorem Yields.mapError {α : Type} {r : Except Fault (α × Cursor)} {a? : Option α}
    {tail : List UInt8} (hr : Yields r a? tail) (g : Fault → Fault) :
    Yields (r.mapError g) a? tail := by
  cases a? with
  | none =>
    obtain ⟨fault, rfl⟩ := hr
    exact ⟨g fault, rfl⟩
  | some a =>
    obtain ⟨c, rfl, hc⟩ := hr
    exact ⟨c, rfl, hc⟩

theorem Yields.map {α β : Type} {r : Except Fault (α × Cursor)} {a? : Option α}
    {tail : List UInt8} (hr : Yields r a? tail) (g : α → β) :
    Yields (r.map fun r => (g r.1, r.2)) (a?.bind fun a => some (g a)) tail := by
  cases a? with
  | none =>
    obtain ⟨fault, rfl⟩ := hr
    exact ⟨fault, rfl⟩
  | some a =>
    obtain ⟨c, rfl, hc⟩ := hr
    exact ⟨c, rfl, hc⟩

theorem Yields.congr {α : Type} {r : Except Fault (α × Cursor)} {a? b? : Option α}
    {tail : List UInt8} (hr : Yields r a? tail) (hab : a? = b?) : Yields r b? tail := hab ▸ hr

/-- A value and the cursor, where they are all that is left to give. -/
theorem yields_ok {α : Type} (a : α) {c : Cursor} {tail : List UInt8} (h : c.rest = tail) :
    Yields (.ok (a, c)) (some a) tail := ⟨c, rfl, h⟩

/-- A value is given once a step behind it went well. -/
theorem Yields.close {α : Type} {r : Except Fault (α × Cursor)} {a? : Option α}
    {next tail : List UInt8} (hr : Yields r a? next) {close : Cursor → Except Fault Cursor}
    (hclose : ∀ c, c.rest = next → Passes (close c) tail) :
    Yields (r >>= fun r => close r.2 >>= fun c => .ok (r.1, c)) a? tail := by
  rw [← Option.bind_fun_some a?]
  exact hr.bind fun a c hc => (hclose c hc).bind fun _ h => yields_ok a h

/-! ## Failing -/

theorem exists_error {ε α : Type} {r : Except ε α} (h : ∀ a, r ≠ .ok a) : ∃ e, r = .error e := by
  cases r with
  | error e => exact ⟨e, rfl⟩
  | ok a => exact absurd rfl (h a)

/-- Nothing is read where the type is refused. -/
theorem failType_ne_ok {α : Type} (expected : String) (c : Cursor) (a : α) :
    failType expected c ≠ .ok a := by
  have hrefuse (r : Except Fault (Found × Cursor)) :
      r >>= (fun x => (x.2.fail (.invalidType x.1 expected) : Except Fault α)) ≠ .ok a := by
    intro h
    cases r with
    | error fault => cases h
    | ok x => cases h
  rw [failType]
  split
  case h_2 | h_3 | h_4 | h_5 | h_6 => exact hrefuse _
  case h_9 =>
    split
    · exact hrefuse _
    · intro h
      cases h
  all_goals
    intro h
    cases h

theorem yields_failType {α : Type} (expected : String) (c : Cursor) (tail : List UInt8) :
    Yields (failType expected c) (none : Option α) tail :=
  exists_error fun _ => failType_ne_ok expected c _

end Chassis.Json
