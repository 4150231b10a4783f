import Chassis.Proofs.Outcome
import Chassis.Json.Skip
import Chassis.Proofs.Text.Utf8

/-!
# Reading back texts in JSON

A reader works on a cursor, and what it does depends on the bytes ahead alone: line and column only
say where a fault is. The lemmas here therefore all have one form: if the bytes ahead are what the
writer put there, and then any `tail`, the reader gives the value back and stands before `tail`.

> **a text is read back from its written form**, whatever characters it holds (`readText_writeText`).

The written form mixes escapes and plain bytes, so the loop is followed one *character* at a time
(`readTextLoop_writeChar`). Behind each the bytes read so far are those of the characters so far,
and that is what `Utf8.decode?_encodeChars` decodes at the closing quotation mark.
-/

set_option autoImplicit false

namespace Chassis.Json

open Text Text.Utf8

/-! ## The cursor -/

namespace Cursor

@[simp] theorem behind_rest (c : Cursor) (b : UInt8) (rest : List UInt8) :
    (c.behind b rest).rest = rest := by
  unfold behind
  split <;> rfl

theorem next_rest {c : Cursor} {b : UInt8} {t : List UInt8} (h : c.rest = b :: t) :
    c.next.rest = t := by
  simp [next, h]

theorem rest_next (c : Cursor) : c.next.rest = c.rest.tail := by
  cases h : c.rest with
  | nil => simp [next, h]
  | cons b t => simp [next, h]

theorem rest_skip (n : Nat) (c : Cursor) : (c.skip n).rest = c.rest.drop n := by
  induction n generalizing c with
  | zero => rfl
  | succ n ih => rw [skip, ih, rest_next, List.drop_tail]

theorem peek?_cons {c : Cursor} {b : UInt8} {t : List UInt8} (h : c.rest = b :: t) :
    c.peek? = some (Char.ofNat b.toNat) := by
  simp [peek?, h]

theorem peek?_nil {c : Cursor} (h : c.rest = []) : c.peek? = none := by
  simp [peek?, h]

/-- Nothing is passed over where the next byte does not have the property. -/
theorem skipWhile_cons {p : Char → Bool} {c : Cursor} {b : UInt8} {t : List UInt8}
    (h : c.rest = b :: t) (hb : p (Char.ofNat b.toNat) = false) : c.skipWhile p = c := by
  cases c
  simp only at h
  subst h
  simp [skipWhile, skipWhileFrom, hb]

theorem skipWhile_nil {p : Char → Bool} {c : Cursor} (h : c.rest = []) : c.skipWhile p = c := by
  cases c
  simp only at h
  subst h
  rfl

theorem rest_skipWhileFrom {p : Char → Bool} {bs : List UInt8}
    (h : ∀ b ∈ bs, p (Char.ofNat b.toNat) = true) (line column : Nat) :
    (skipWhileFrom p bs line column).rest = [] := by
  induction bs generalizing line column with
  | nil => rfl
  | cons b bs ih =>
    have hrest := ih fun b' hb' => h b' (List.mem_cons_of_mem b hb')
    rw [skipWhileFrom, if_pos (h b List.mem_cons_self)]
    split
    · exact hrest (line + 1) 0
    · exact hrest line (column + 1)

/-- Everything is passed over where all bytes have the property. -/
theorem rest_skipWhile {p : Char → Bool} {c : Cursor}
    (h : ∀ b ∈ c.rest, p (Char.ofNat b.toNat) = true) : (c.skipWhile p).rest = [] :=
  rest_skipWhileFrom h c.line c.column

theorem skipSpace_cons {c : Cursor} {b : UInt8} {t : List UInt8} (h : c.rest = b :: t)
    (hb : isSpace (Char.ofNat b.toNat) = false) : c.skipSpace = c :=
  skipWhile_cons h hb

end Cursor

/-! ## Reading characters -/

/-- A byte that stands for itself inside a text. -/
def IsPlain (b : UInt8) : Prop := b ≠ 0x22 ∧ b ≠ 0x5C ∧ ¬ b < 0x20

theorem readTextLoop_plain (start : Cursor) {bs : List UInt8} (hp : ∀ b ∈ bs, IsPlain b)
    {tail : List UInt8} : ∀ {c : Cursor}, c.rest = bs ++ tail → ∀ acc : List UInt8,
    ∃ c', c'.rest = tail ∧ ∀ fuel, readTextLoop start (fuel + bs.length) acc c =
      readTextLoop start fuel (bs.reverse ++ acc) c' := by
  induction bs with
  | nil => exact fun {c} h acc => ⟨c, h, fun _ => rfl⟩
  | cons b bs ih =>
    intro c h acc
    obtain ⟨hq, hb, hc⟩ := hp b (by simp)
    obtain ⟨c', hr, hl⟩ := ih (fun x hx => hp x (by simp [hx])) (Cursor.next_rest h) (b :: acc)
    refine ⟨c', hr, fun fuel => ?_⟩
    have hstep : readTextLoop start (fuel + bs.length + 1) acc c =
        readTextLoop start (fuel + bs.length) (b :: acc) c.next := by
      simp only [readTextLoop, h, List.cons_append, if_neg hq, if_neg hb, if_neg hc]
    rw [show fuel + (b :: bs).length = fuel + bs.length + 1 from rfl, hstep, hl]
    simp

/-- The bytes of characters that are written as themselves are plain. -/
theorem isPlain_of_mem_encodeChar {ch : Char} (hq : ch ≠ '"') (hb : ch ≠ '\\')
    (hc : ¬ ch.toNat < 0x20) {b : UInt8} (h : b ∈ encodeChar ch) : IsPlain b := by
  have hn : b.toNat ≠ 0x22 ∧ b.toNat ≠ 0x5C ∧ ¬ b.toNat < 0x20 := by
    by_cases hascii : ch.toNat < 0x80
    · rw [encodeChar_ascii hascii, List.mem_singleton] at h
      have ne (x : Char) (hx : ch ≠ x) : ch.toNat ≠ x.toNat := fun he => hx (Char.toNat_inj.1 he)
      rw [h, toNat_toUInt8 (by omega)]
      exact ⟨ne _ hq, ne _ hb, hc⟩
    · have := le_of_mem_encodeChar (by omega) h
      omega
  refine ⟨fun he => hn.1 ?_, fun he => hn.2.1 ?_, fun hl => hn.2.2 ?_⟩
  · rw [he]; rfl
  · rw [he]; rfl
  · exact UInt8.lt_iff_toNat_lt.1 hl

/-- A backslash hands over to what follows it. -/
theorem readTextLoop_escape (start : Cursor) {c c' : Cursor} {t bytes : List UInt8}
    (h : c.rest = 0x5C :: t) (he : readEscape c.next = .ok (bytes, c')) (fuel : Nat)
    (acc : List UInt8) : readTextLoop start (fuel + 1) acc c =
      readTextLoop start fuel (bytes.reverse ++ acc) c' := by
  have hq : ¬ (0x5C : UInt8) = 0x22 := by decide
  simp only [readTextLoop, h, if_neg hq, ↓reduceIte, he]
  rfl

theorem readEscape_simple {c : Cursor} {e b : UInt8} {t : List UInt8} (h : c.rest = e :: t)
    (hu : Char.ofNat e.toNat ≠ 'u') (hs : simpleEscape? (Char.ofNat e.toNat) = some b) :
    readEscape c = .ok ([b], c.next) := by
  rw [readEscape, Cursor.peek?_cons h]
  split
  case h_1 heq => exact absurd heq (by simp)
  case h_2 heq => exact absurd (Option.some.inj heq) hu
  case h_3 e' _ heq =>
    obtain rfl := Option.some.inj heq
    rw [hs]

theorem hexDigit_ascii : ∀ n < 16, (hexDigit n).toNat < 0x80 := by
  decide

/-- The four digits of a control character are read back as its number. -/
theorem readHex_control {c : Cursor} {n : Nat} (hn : n < 0x20) {tail : List UInt8}
    (h : c.rest = encodeChars ['0', '0', hexDigit (n / 16), hexDigit (n % 16)] ++ tail) :
    readHex c = .ok (n, c.skip 4) := by
  have ascii (k : Nat) (hk : k < 16) : encodeChar (hexDigit k) = [(hexDigit k).toNat.toUInt8] :=
    encodeChar_ascii (hexDigit_ascii k hk)
  have digit (k : Nat) (hk : k < 16) :
      hexValue? (Char.ofNat (hexDigit k).toNat.toUInt8.toNat) = some k := by
    rw [toNat_toUInt8 (by have := hexDigit_ascii k hk; omega), Char.ofNat_toNat,
      hexValue?_hexDigit k hk]
  have hzero : hexValue? (Char.ofNat (0x30 : UInt8).toNat) = some 0 := by decide
  have hr : c.rest = 0x30 :: 0x30 :: (hexDigit (n / 16)).toNat.toUInt8 ::
      (hexDigit (n % 16)).toNat.toUInt8 :: tail := by
    rw [h]
    simp only [encodeChars_cons, ascii (n / 16) (by omega), ascii (n % 16) (by omega)]
    rfl
  simp only [readHex, hr, hzero, digit (n / 16) (by omega), digit (n % 16) (by omega)]
  rw [show ((0 * 16 + 0) * 16 + n / 16) * 16 + n % 16 = n by omega]

theorem readTextLoop_simple (start : Cursor) {c : Cursor} {e b : UInt8} {tail : List UInt8}
    (h : c.rest = 0x5C :: e :: tail) (hu : Char.ofNat e.toNat ≠ 'u')
    (hs : simpleEscape? (Char.ofNat e.toNat) = some b) (acc : List UInt8) :
    ∃ c', c'.rest = tail ∧
      ∀ fuel, readTextLoop start (fuel + 1) acc c = readTextLoop start fuel (b :: acc) c' := by
  have hn := Cursor.next_rest h
  refine ⟨c.next.next, Cursor.next_rest hn, fun fuel => ?_⟩
  exact readTextLoop_escape start h (readEscape_simple hn hu hs) fuel acc

theorem readTextLoop_control (start : Cursor) {c : Cursor} {n : Nat} (hn : n < 0x20)
    {tail : List UInt8}
    (h : c.rest = 0x5C :: 0x75 ::
      (encodeChars ['0', '0', hexDigit (n / 16), hexDigit (n % 16)] ++ tail)) (acc : List UInt8) :
    ∃ c', c'.rest = tail ∧ ∀ fuel, readTextLoop start (fuel + 1) acc c =
      readTextLoop start fuel ((encodeChar (Char.ofNat n)).reverse ++ acc) c' := by
  have h1 := Cursor.next_rest h
  have h2 := Cursor.next_rest h1
  have hlen : (encodeChars ['0', '0', hexDigit (n / 16), hexDigit (n % 16)]).length = 4 := by
    simp only [encodeChars_cons, encodeChar_ascii (hexDigit_ascii (n / 16) (by omega)),
      encodeChar_ascii (hexDigit_ascii (n % 16) (by omega))]
    rfl
  refine ⟨c.next.next.skip 4, ?_, fun fuel => readTextLoop_escape start h ?_ fuel acc⟩
  · rw [Cursor.rest_skip, h2, ← hlen, List.drop_left]
  · have hu : Char.ofNat (0x75 : UInt8).toNat = 'u' := by decide
    have hsurr : ¬ (0xDC00 ≤ n ∧ n ≤ 0xDFFF) := by omega
    simp only [readEscape, Cursor.peek?_cons h1, hu, readUnicode, readHex_control hn h2]
    simp only [bind, Except.bind, if_neg hsurr, if_pos (show n < 0xD800 ∨ 0xDBFF < n by omega)]

/-- One character: its written form adds its bytes to those read so far. The fuel it takes is no
more than the bytes it takes. -/
theorem readTextLoop_writeChar (start : Cursor) (ch : Char) {c : Cursor} {tail : List UInt8}
    (h : c.rest = encodeChars (writeChar ch) ++ tail) (acc : List UInt8) :
    ∃ c' used, c'.rest = tail ∧ used ≤ (encodeChars (writeChar ch)).length ∧
      ∀ fuel, readTextLoop start (fuel + used) acc c =
        readTextLoop start fuel ((encodeChar ch).reverse ++ acc) c' := by
  revert h
  -- Seven characters have an escape of two bytes, other control characters one of six, and the rest
  -- stand for themselves.
  fun_cases writeChar ch
  all_goals intro h
  case case1 hc | case2 _ hc | case3 _ _ hc | case4 _ _ _ hc | case5 _ _ _ _ hc |
      case6 _ _ _ _ _ hc | case7 _ _ _ _ _ _ hc =>
    subst hc
    obtain ⟨c', hr, hl⟩ := readTextLoop_simple start h (by decide) rfl acc
    exact ⟨c', 1, hr, by decide, hl⟩
  case case8 hc =>
    obtain ⟨c', hr, hl⟩ := readTextLoop_control start hc h acc
    rw [Char.ofNat_toNat] at hl
    exact ⟨c', 1, hr, by rw [encodeChars_cons]; simp [encodeChar], hl⟩
  case case9 hq hb _ _ _ _ _ hc =>
    have hplain : ∀ b ∈ encodeChar ch, IsPlain b := fun b => isPlain_of_mem_encodeChar hq hb hc
    obtain ⟨c', hr, hl⟩ := readTextLoop_plain start hplain (by simpa [encodeChars_cons] using h) acc
    exact ⟨c', (encodeChar ch).length, hr, by simp [encodeChars_cons], hl⟩

/-! ## Reading texts -/

/-- Characters one after another, from the point where those of `done` were read. -/
theorem readTextLoop_writeChars (start : Cursor) {tail : List UInt8} : ∀ (cs done : List Char)
    (acc : List UInt8) (fuel : Nat) {c : Cursor},
    c.rest = encodeChars (cs.flatMap writeChar) ++ 0x22 :: tail → acc.reverse = encodeChars done →
    (encodeChars (cs.flatMap writeChar)).length < fuel →
    ∃ c', readTextLoop start fuel acc c = .ok (String.ofList (done ++ cs), c') ∧ c'.rest = tail
  | [], done, acc, fuel, c, h, ha, hf => by
    obtain ⟨fuel, rfl⟩ : ∃ n, fuel = n + 1 := ⟨fuel - 1, by omega⟩
    have h : c.rest = 0x22 :: tail := h
    refine ⟨c.next, ?_, Cursor.next_rest h⟩
    simp only [readTextLoop, h, ↓reduceIte, ha, decode?_encodeChars, List.append_nil]
  | ch :: cs, done, acc, fuel, c, h, ha, hf => by
    rw [List.flatMap_cons, encodeChars_append, List.append_assoc] at h
    rw [List.flatMap_cons, encodeChars_append, List.length_append] at hf
    obtain ⟨c₁, used, hr, hu, hl⟩ := readTextLoop_writeChar start ch h acc
    have ha' : ((encodeChar ch).reverse ++ acc).reverse = encodeChars (done ++ [ch]) := by
      simp [ha, encodeChars_cons]
    obtain ⟨c', hc, hr'⟩ := readTextLoop_writeChars start cs (done ++ [ch]) _
      (fuel - used) hr ha' (by omega)
    refine ⟨c', ?_, hr'⟩
    rw [show fuel = fuel - used + used by omega, hl, hc, List.append_assoc]
    rfl

/-- **A text is read back from its written form.** The quotation mark in front was read. -/
theorem readText_writeText (s : String) {c : Cursor} {tail : List UInt8}
    (h : c.rest = encodeChars (s.toList.flatMap writeChar) ++ 0x22 :: tail) :
    ∃ c', readText c = .ok (s, c') ∧ c'.rest = tail := by
  have hf : (encodeChars (s.toList.flatMap writeChar)).length < c.rest.length + 1 := by
    rw [h, List.length_append]
    omega
  obtain ⟨c', hc, hr⟩ := readTextLoop_writeChars c s.toList [] [] _ h rfl hf
  exact ⟨c', by rw [readText, hc, List.nil_append, String.ofList_toList], hr⟩

end Chassis.Json
