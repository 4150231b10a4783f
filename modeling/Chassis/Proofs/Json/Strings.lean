import Chassis.Proofs.Json.Ahead

/-!
# Strings of JSON texts

> **Both readers of strings take what is a string by the grammar, and reading gives the text that it
> stands for, if it stands for one** (`skipText_content`, `exists_content_of_skipText`,
> `readText_content`, `exists_content_of_readText`).

A string is followed one piece at a time. Only reading has more to do than to pass over a piece: an
upper surrogate takes the lower one behind it along, which is why the induction is that of
`decoded?`.
-/

set_option autoImplicit false

namespace Chassis.Json

open Text Text.Utf8

/-! ## Pieces -/

theorem readHex_unit {w x y z : UInt8} {n : Nat} (hn : hexUnit? w x y z = some n) {c : Cursor}
    {tail : List UInt8} (h : c.rest = w :: x :: y :: z :: tail) :
    ∃ c', readHex c = .ok (n, c') ∧ c'.rest = tail := by
  refine ⟨c.skip 4, ?_, by rw [Cursor.rest_skip, h]; rfl⟩
  rw [hexUnit?] at hn
  dsimp only at hn
  split at hn
  case h_1 ha hb hd he =>
    cases hn
    simp only [readHex, h, ha, hb, hd, he]
  case h_2 => cases hn

theorem exists_unit_of_readHex {c c' : Cursor} {n : Nat} (h : readHex c = .ok (n, c')) :
    ∃ w x y z, hexUnit? w x y z = some n ∧ c.rest = w :: x :: y :: z :: c'.rest := by
  rw [readHex] at h
  split at h
  case h_1 a b d e t hrest =>
    dsimp only at h
    split at h
    case h_1 ha hb hd he =>
      cases h
      refine ⟨a, b, d, e, ?_, ?_⟩
      · simp only [hexUnit?, ha, hb, hd, he]
      · rw [Cursor.rest_skip, hrest]
        rfl
    case h_2 => cases h
  case h_2 => cases h

/-- The letter that announces a code unit is no escape of its own. -/
theorem ne_u_of_simpleEscape? {e : Char} {b : UInt8} (h : simpleEscape? e = some b) : e ≠ 'u' := by
  rintro rfl
  cases h

theorem contentBytes_cons (p : Piece) (ps : List Piece) :
    contentBytes (p :: ps) = p.bytes ++ contentBytes ps := rfl

theorem length_contentBytes_cons (p : Piece) (ps : List Piece) :
    (contentBytes ps).length < (contentBytes (p :: ps)).length := by
  rw [contentBytes_cons, List.length_append]
  cases p <;> simp [Piece.bytes]

/-! ## Skipping -/

theorem skipEscape_letter {e b : UInt8} (he : simpleEscape? (Char.ofNat e.toNat) = some b)
    {c : Cursor} {tail : List UInt8} (h : c.rest = e :: tail) : Passes (skipEscape c) tail := by
  refine ⟨c.next, ?_, Cursor.next_rest h⟩
  rw [skipEscape, Cursor.peek?_cons h]
  split
  case h_1 hp => cases hp
  case h_2 hp => exact absurd (Option.some.inj hp) (ne_u_of_simpleEscape? he)
  case h_3 hp =>
    rw [← Option.some.inj hp, he]
    rfl

theorem skipEscape_unit {w x y z : UInt8} {n : Nat} (hn : hexUnit? w x y z = some n) {c : Cursor}
    {tail : List UInt8} (h : c.rest = 0x75 :: w :: x :: y :: z :: tail) :
    Passes (skipEscape c) tail := by
  obtain ⟨c', hread, hrest⟩ := readHex_unit hn (Cursor.next_rest h)
  refine ⟨c', ?_, hrest⟩
  have hp : c.peek? = some 'u' := Cursor.peek?_cons h
  simp only [skipEscape, hp, hread]
  rfl

theorem exists_piece_of_skipEscape {c c' : Cursor} (h : skipEscape c = .ok c') :
    ∃ p : Piece, 0x5C :: c.rest = p.bytes ++ c'.rest := by
  rw [skipEscape] at h
  split at h
  case h_1 => cases h
  case h_2 hp =>
    cases hread : readHex c.next with
    | error fault => rw [hread] at h; cases h
    | ok r =>
      rw [hread] at h
      cases h
      obtain ⟨t, ht⟩ := Cursor.exists_rest_of_peek? hp
      obtain ⟨w, x, y, z, hn, hrest⟩ := exists_unit_of_readHex hread
      rw [Cursor.next_rest ht] at hrest
      refine ⟨.unit w x y z _ hn, ?_⟩
      rw [ht, hrest]
      rfl
  case h_3 e _ hp =>
    obtain ⟨t, ht⟩ := Cursor.exists_rest_of_peek? hp
    split at h
    case isTrue he =>
      cases h
      obtain ⟨b, hb⟩ := Option.isSome_iff_exists.1 he
      have hchar : Char.ofNat e.toNat.toUInt8.toNat = e := by
        rw [Cursor.peek?_cons ht] at hp
        exact Option.some.inj hp
      refine ⟨.letter e.toNat.toUInt8 b (by rw [hchar, hb]), ?_⟩
      rw [ht, Cursor.next_rest ht]
      rfl
    case isFalse => cases h

/-- A piece is passed over, whatever follows. -/
theorem skipTextLoop_piece (p : Piece) {c : Cursor} {tail : List UInt8}
    (h : c.rest = p.bytes ++ tail) :
    ∃ c', c'.rest = tail ∧ ∀ fuel, skipTextLoop (fuel + 1) c = skipTextLoop fuel c' := by
  have hescape {t : List UInt8} (hc : c.rest = 0x5C :: t)
      (hpass : Passes (skipEscape c.next) tail) :
      ∃ c', c'.rest = tail ∧ ∀ fuel, skipTextLoop (fuel + 1) c = skipTextLoop fuel c' := by
    obtain ⟨c', hskip, hrest⟩ := hpass
    have hq : ¬ (0x5C : UInt8) = 0x22 := by decide
    refine ⟨c', hrest, fun fuel => ?_⟩
    simp only [skipTextLoop, hc, if_neg hq, ↓reduceIte, hskip]
    rfl
  cases p with
  | plain b hb =>
    obtain ⟨hq, he, hc⟩ := hb
    have h : c.rest = b :: tail := h
    refine ⟨c.next, Cursor.next_rest h, fun fuel => ?_⟩
    simp only [skipTextLoop, h, if_neg hq, if_neg he, if_neg hc]
  | letter e b hb => exact hescape h (skipEscape_letter hb (Cursor.next_rest h))
  | unit w x y z n hn => exact hescape h (skipEscape_unit hn (Cursor.next_rest h))

/-- **A string is skipped**, behind its quotation mark. -/
theorem skipText_content (ps : List Piece) {c : Cursor} {tail : List UInt8}
    (h : c.rest = contentBytes ps ++ 0x22 :: tail) : Passes (skipText c) tail := by
  have hloop : ∀ (ps : List Piece) (fuel : Nat) {c : Cursor},
      c.rest = contentBytes ps ++ 0x22 :: tail → (contentBytes ps).length < fuel →
      Passes (skipTextLoop fuel c) tail := by
    intro ps
    induction ps with
    | nil =>
      intro fuel c h hf
      obtain ⟨fuel, rfl⟩ : ∃ n, fuel = n + 1 := ⟨fuel - 1, by omega⟩
      have h : c.rest = 0x22 :: tail := h
      exact ⟨c.next, by simp only [skipTextLoop, h, ↓reduceIte], Cursor.next_rest h⟩
    | cons p ps ih =>
      intro fuel c h hf
      obtain ⟨fuel, rfl⟩ : ∃ n, fuel = n + 1 := ⟨fuel - 1, by omega⟩
      rw [contentBytes_cons, List.append_assoc] at h
      have hlen := length_contentBytes_cons p ps
      obtain ⟨c', hrest, hstep⟩ := skipTextLoop_piece p h
      rw [hstep]
      exact ih fuel hrest (by omega)
  refine hloop ps _ h ?_
  rw [h, List.length_append]
  omega

/-- **What is skipped as a string is one.** -/
theorem exists_content_of_skipText {c c' : Cursor} (h : skipText c = .ok c') :
    ∃ ps, c.rest = contentBytes ps ++ 0x22 :: c'.rest := by
  have hloop : ∀ (fuel : Nat) {c : Cursor}, skipTextLoop fuel c = .ok c' →
      ∃ ps, c.rest = contentBytes ps ++ 0x22 :: c'.rest := by
    intro fuel
    induction fuel with
    | zero => exact nofun
    | succ fuel ih =>
      intro c h
      rw [skipTextLoop] at h
      split at h
      case h_1 => cases h
      case h_2 b t hb =>
        split at h
        case isTrue hq =>
          cases h
          exact ⟨[], by rw [Cursor.next_rest hb, hb, hq]; rfl⟩
        case isFalse hq =>
          split at h
          case isTrue he =>
            cases hskip : skipEscape c.next with
            | error fault => rw [hskip] at h; cases h
            | ok c₁ =>
              rw [hskip, ok_bind] at h
              obtain ⟨p, hp⟩ := exists_piece_of_skipEscape hskip
              obtain ⟨ps, hps⟩ := ih h
              refine ⟨p :: ps, ?_⟩
              rw [contentBytes_cons, List.append_assoc, ← hps, ← hp, Cursor.next_rest hb, hb, he]
          case isFalse he =>
            split at h
            case isTrue => cases h
            case isFalse hc =>
              obtain ⟨ps, hps⟩ := ih h
              refine ⟨.plain b ⟨hq, he, hc⟩ :: ps, ?_⟩
              rw [contentBytes_cons, List.append_assoc, ← hps, Cursor.next_rest hb, hb]
              rfl
  exact hloop _ h

/-! ## Reading -/

theorem readExact_cons {ch : Char} {c : Cursor} {b : UInt8} {t : List UInt8} (h : c.rest = b :: t)
    (hb : Char.ofNat b.toNat = ch) : readExact ch c = .ok c.next := by
  rw [readExact, Cursor.peek?_cons h]
  exact if_pos hb

theorem readExact_cons_ne {ch : Char} {c : Cursor} {b : UInt8} {t : List UInt8}
    (h : c.rest = b :: t) (hb : Char.ofNat b.toNat ≠ ch) :
    ∃ fault, readExact ch c = .error fault := by
  rw [readExact, Cursor.peek?_cons h]
  exact ⟨_, if_neg hb⟩

theorem rest_of_readExact {ch : Char} {c c' : Cursor} (h : readExact ch c = .ok c') :
    c.rest = ch.toNat.toUInt8 :: c'.rest := by
  rw [readExact] at h
  split at h
  case h_1 => cases h
  case h_2 b hp =>
    split at h
    case isTrue hb =>
      cases h
      obtain ⟨t, ht⟩ := Cursor.exists_rest_of_peek? hp
      rw [Cursor.next_rest ht, ht, hb]
    case isFalse => cases h

/-- What a numbered character comes to once its first code unit was read. -/
def unitRead (n : Nat) (c : Cursor) : Except Fault (List UInt8 × Cursor) :=
  if 0xDC00 ≤ n ∧ n ≤ 0xDFFF then c.fail .loneSurrogate
  else if n < 0xD800 ∨ 0xDBFF < n then .ok (encodeChar (Char.ofNat n), c)
  else do
    let c ← readExact '\\' c
    let c ← readExact 'u' c
    let (m, c) ← readHex c
    if m < 0xDC00 ∨ 0xDFFF < m then c.fail .loneSurrogate
    else .ok (encodeChar (Char.ofNat ((n - 0xD800) * 0x400 + (m - 0xDC00) + 0x10000)), c)

theorem readUnicode_of_readHex {c c' : Cursor} {n : Nat} (h : readHex c = .ok (n, c')) :
    readUnicode c = unitRead n c' := by
  rw [readUnicode, h]
  rfl

theorem readEscape_unit {w x y z : UInt8} {n : Nat} (hn : hexUnit? w x y z = some n) {c : Cursor}
    {tail : List UInt8} (h : c.rest = 0x75 :: w :: x :: y :: z :: tail) :
    ∃ c', c'.rest = tail ∧ readEscape c = unitRead n c' := by
  obtain ⟨c', hread, hrest⟩ := readHex_unit hn (Cursor.next_rest h)
  have hp : c.peek? = some 'u' := Cursor.peek?_cons h
  refine ⟨c', hrest, ?_⟩
  rw [← readUnicode_of_readHex hread]
  simp only [readEscape, hp]

/-- No other code unit is read in front of the end of a string, a plain byte or a letter. -/
theorem readExact_error {c : Cursor} {ps : List Piece} {tail : List UInt8}
    (h : c.rest = contentBytes ps ++ 0x22 :: tail)
    (hps : ∀ w x y z n hn rest, ps = .unit w x y z n hn :: rest → False) {α : Type}
    (next : Cursor → Except Fault α) :
    ∃ fault, (readExact '\\' c >>= fun c => readExact 'u' c >>= next) = .error fault := by
  have hfirst {b : UInt8} {t : List UInt8} (hc : c.rest = b :: t) (hb : b ≠ 0x5C) :
      ∃ fault, (readExact '\\' c >>= fun c => readExact 'u' c >>= next) = .error fault := by
    have hch : Char.ofNat b.toNat ≠ '\\' := fun he => hb (eq_of_ofNat_toNat he)
    obtain ⟨fault, hf⟩ := readExact_cons_ne hc hch
    exact ⟨fault, by rw [hf]; rfl⟩
  match ps with
  | [] => exact hfirst h (by decide)
  | .plain b hb :: _ => exact hfirst h hb.2.1
  | .letter e b hb :: _ =>
    have hch : Char.ofNat (0x5C : UInt8).toNat = '\\' := rfl
    obtain ⟨fault, hf⟩ := readExact_cons_ne (Cursor.next_rest h) (ne_u_of_simpleEscape? hb)
    exact ⟨fault, by rw [readExact_cons h hch, ok_bind, hf]; rfl⟩
  | .unit w x y z n hn :: rest => exact (hps w x y z n hn rest rfl).elim

/-- Behind an upper surrogate another code unit makes a character of both, if it is a lower one. -/
theorem unitRead_unit {n : Nat} (hlow : ¬ (0xDC00 ≤ n ∧ n ≤ 0xDFFF))
    (hbasic : ¬ (n < 0xD800 ∨ 0xDBFF < n)) {w x y z : UInt8} {m : Nat}
    (hm : hexUnit? w x y z = some m) {c : Cursor} {tail : List UInt8}
    (h : c.rest = 0x5C :: 0x75 :: w :: x :: y :: z :: tail) :
    ∃ c', c'.rest = tail ∧ unitRead n c =
      if m < 0xDC00 ∨ 0xDFFF < m then c'.fail .loneSurrogate
      else .ok (encodeChar (Char.ofNat ((n - 0xD800) * 0x400 + (m - 0xDC00) + 0x10000)), c') := by
  have hback : Char.ofNat (0x5C : UInt8).toNat = '\\' := rfl
  have hu : Char.ofNat (0x75 : UInt8).toNat = 'u' := rfl
  have h₁ := Cursor.next_rest h
  obtain ⟨c', hread, hrest⟩ := readHex_unit hm (Cursor.next_rest h₁)
  refine ⟨c', hrest, ?_⟩
  rw [unitRead, if_neg hlow, if_neg hbasic, readExact_cons h hback, ok_bind, readExact_cons h₁ hu,
    ok_bind, hread, ok_bind]

theorem readTextLoop_escape_error (start : Cursor) {c : Cursor} {t : List UInt8}
    (h : c.rest = 0x5C :: t) {fault : Fault} (he : readEscape c.next = .error fault) (fuel : Nat)
    (acc : List UInt8) : readTextLoop start (fuel + 1) acc c = .error fault := by
  have hq : ¬ (0x5C : UInt8) = 0x22 := by decide
  simp only [readTextLoop, h, if_neg hq, ↓reduceIte, he]
  rfl

/-- Bytes that a step adds to those read so far are in front of those of what follows. -/
theorem yields_of_step (bytes : List UInt8) {r : Except Fault (String × Cursor)}
    {decoded : Option (List UInt8)} {acc tail : List UInt8}
    (h : Yields r (decoded.bind fun bs => decode? ((bytes.reverse ++ acc).reverse ++ bs)) tail) :
    Yields r ((decoded.map (bytes ++ ·)).bind fun bs => decode? (acc.reverse ++ bs)) tail := by
  simpa [Option.bind_map, Function.comp_def] using h

theorem readTextLoop_content (start : Cursor) {tail : List UInt8} (ps : List Piece) :
    ∀ (fuel : Nat) (acc : List UInt8) {c : Cursor}, c.rest = contentBytes ps ++ 0x22 :: tail →
      (contentBytes ps).length < fuel →
      Yields (readTextLoop start fuel acc c)
        ((decoded? ps).bind fun bs => decode? (acc.reverse ++ bs)) tail := by
  -- An upper surrogate takes the next piece along, so the pieces are followed as `decoded?` does.
  fun_induction decoded? ps
  all_goals
    intro fuel acc c h hf
    obtain ⟨fuel, rfl⟩ : ∃ n, fuel = n + 1 := ⟨fuel - 1, by omega⟩
  case case1 =>
    have h : c.rest = 0x22 :: tail := h
    simp only [readTextLoop, h, ↓reduceIte, Option.bind_some, List.append_nil]
    cases decode? acc.reverse with
    | some s => exact ⟨c.next, rfl, Cursor.next_rest h⟩
    | none => exact ⟨_, rfl⟩
  case case2 b hb ps ih =>
    obtain ⟨hq, he, hc⟩ := hb
    have h : c.rest = b :: (contentBytes ps ++ 0x22 :: tail) := h
    have hlen := length_contentBytes_cons (.plain b ⟨hq, he, hc⟩) ps
    simp only [readTextLoop, h, if_neg hq, if_neg he, if_neg hc]
    exact yields_of_step [b] (ih fuel (b :: acc) (Cursor.next_rest h) (by omega))
  case case3 e b he ps ih =>
    have h : c.rest = 0x5C :: e :: (contentBytes ps ++ 0x22 :: tail) := h
    have hn := Cursor.next_rest h
    have hlen := length_contentBytes_cons (.letter e b he) ps
    rw [readTextLoop_escape start h (readEscape_simple hn (ne_u_of_simpleEscape? he) he)]
    exact yields_of_step [b] (ih fuel _ (Cursor.next_rest hn) (by omega))
  case case4 w x y z n hn ps hlow =>
    have h : c.rest = 0x5C :: 0x75 :: w :: x :: y :: z :: (contentBytes ps ++ 0x22 :: tail) := h
    obtain ⟨c', hrest, hread⟩ := readEscape_unit hn (Cursor.next_rest h)
    rw [unitRead, if_pos hlow] at hread
    exact ⟨_, readTextLoop_escape_error start h hread fuel acc⟩
  case case5 w x y z n hn ps hlow hbasic ih =>
    have h : c.rest = 0x5C :: 0x75 :: w :: x :: y :: z :: (contentBytes ps ++ 0x22 :: tail) := h
    obtain ⟨c', hrest, hread⟩ := readEscape_unit hn (Cursor.next_rest h)
    have hlen := length_contentBytes_cons (.unit w x y z n hn) ps
    rw [unitRead, if_neg hlow, if_pos hbasic] at hread
    rw [readTextLoop_escape start h hread]
    exact yields_of_step _ (ih fuel _ hrest (by omega))
  case case6 w x y z n hn hlow hbasic w' x' y' z' m hm ps hbad =>
    have h : c.rest = 0x5C :: 0x75 :: w :: x :: y :: z ::
      0x5C :: 0x75 :: w' :: x' :: y' :: z' :: (contentBytes ps ++ 0x22 :: tail) := h
    obtain ⟨c₁, hrest₁, hread⟩ := readEscape_unit hn (Cursor.next_rest h)
    obtain ⟨c', hrest, hpair⟩ := unitRead_unit hlow hbasic hm hrest₁
    rw [hpair, if_pos hbad] at hread
    exact ⟨_, readTextLoop_escape_error start h hread fuel acc⟩
  case case7 w x y z n hn hlow hbasic w' x' y' z' m hm ps hbad pair ih =>
    have h : c.rest = 0x5C :: 0x75 :: w :: x :: y :: z ::
      0x5C :: 0x75 :: w' :: x' :: y' :: z' :: (contentBytes ps ++ 0x22 :: tail) := h
    obtain ⟨c₁, hrest₁, hread⟩ := readEscape_unit hn (Cursor.next_rest h)
    obtain ⟨c', hrest, hpair⟩ := unitRead_unit hlow hbasic hm hrest₁
    have hlen := length_contentBytes_cons (.unit w x y z n hn) (.unit w' x' y' z' m hm :: ps)
    have hlen' := length_contentBytes_cons (.unit w' x' y' z' m hm) ps
    rw [hpair, if_neg hbad] at hread
    rw [readTextLoop_escape start h hread]
    exact yields_of_step _ (ih fuel _ hrest (by omega))
  case case8 w x y z n hn ps hlow hbasic hother =>
    have h : c.rest = 0x5C :: 0x75 :: w :: x :: y :: z :: (contentBytes ps ++ 0x22 :: tail) := h
    obtain ⟨c₁, hrest₁, hread⟩ := readEscape_unit hn (Cursor.next_rest h)
    rw [unitRead, if_neg hlow, if_neg hbasic] at hread
    obtain ⟨fault, hfault⟩ := readExact_error hrest₁ hother _
    exact ⟨_, readTextLoop_escape_error start h (hread.trans hfault) fuel acc⟩

/-- **A string is read as the text that it stands for**, behind its quotation mark; one that stands
for no text is refused. -/
theorem readText_content (ps : List Piece) {c : Cursor} {tail : List UInt8}
    (h : c.rest = contentBytes ps ++ 0x22 :: tail) : Yields (readText c) (textOf? ps) tail := by
  refine readTextLoop_content c ps _ [] h ?_
  rw [h, List.length_append]
  omega

theorem exists_content_of_readUnicode {c c' : Cursor} {bytes : List UInt8}
    (h : readUnicode c = .ok (bytes, c')) :
    ∃ ps, 0x5C :: 0x75 :: c.rest = contentBytes ps ++ c'.rest := by
  cases hread : readHex c with
  | error fault => rw [readUnicode, hread] at h; cases h
  | ok r =>
    obtain ⟨n, c₁⟩ := r
    obtain ⟨w, x, y, z, hn, hrest⟩ := exists_unit_of_readHex hread
    rw [readUnicode_of_readHex hread, unitRead] at h
    split at h
    case isTrue => cases h
    case isFalse =>
      split at h
      case isTrue =>
        cases h
        exact ⟨[.unit w x y z n hn], by rw [hrest]; rfl⟩
      case isFalse =>
        cases hback : readExact '\\' c₁ with
        | error fault => rw [hback] at h; cases h
        | ok c₂ =>
          rw [hback, ok_bind] at h
          cases hu : readExact 'u' c₂ with
          | error fault => rw [hu] at h; cases h
          | ok c₃ =>
            rw [hu, ok_bind] at h
            cases hread' : readHex c₃ with
            | error fault => rw [hread'] at h; cases h
            | ok r =>
              obtain ⟨m, c₄⟩ := r
              rw [hread', ok_bind] at h
              dsimp only at h
              split at h
              case isTrue => cases h
              case isFalse =>
                obtain ⟨-, rfl⟩ := Prod.mk.inj (Except.ok.inj h)
                obtain ⟨w', x', y', z', hm, hrest'⟩ := exists_unit_of_readHex hread'
                refine ⟨[.unit w x y z n hn, .unit w' x' y' z' m hm], ?_⟩
                rw [hrest, rest_of_readExact hback, rest_of_readExact hu, hrest']
                rfl

theorem exists_content_of_readEscape {c c' : Cursor} {bytes : List UInt8}
    (h : readEscape c = .ok (bytes, c')) : ∃ ps, 0x5C :: c.rest = contentBytes ps ++ c'.rest := by
  rw [readEscape] at h
  split at h
  case h_1 => cases h
  case h_2 hp =>
    obtain ⟨t, ht⟩ := Cursor.exists_rest_of_peek? hp
    obtain ⟨ps, hps⟩ := exists_content_of_readUnicode h
    rw [Cursor.next_rest ht] at hps
    exact ⟨ps, by rw [← hps, ht]; rfl⟩
  case h_3 e _ hp =>
    obtain ⟨t, ht⟩ := Cursor.exists_rest_of_peek? hp
    split at h
    case h_1 b hb =>
      cases h
      have hchar : Char.ofNat e.toNat.toUInt8.toNat = e := by
        rw [Cursor.peek?_cons ht] at hp
        exact Option.some.inj hp
      refine ⟨[.letter e.toNat.toUInt8 b (by rw [hchar, hb])], ?_⟩
      rw [ht, Cursor.next_rest ht]
      rfl
    case h_2 => cases h

/-- **What is read as a string is one.** -/
theorem exists_content_of_readText {c c' : Cursor} {s : String} (h : readText c = .ok (s, c')) :
    ∃ ps, c.rest = contentBytes ps ++ 0x22 :: c'.rest := by
  have hloop : ∀ (fuel : Nat) (acc : List UInt8) {c₁ : Cursor},
      readTextLoop c fuel acc c₁ = .ok (s, c') →
      ∃ ps, c₁.rest = contentBytes ps ++ 0x22 :: c'.rest := by
    intro fuel
    induction fuel with
    | zero => exact nofun
    | succ fuel ih =>
      intro acc c₁ h
      rw [readTextLoop] at h
      split at h
      case h_1 => cases h
      case h_2 b t hb =>
        split at h
        case isTrue hq =>
          split at h
          case h_1 =>
            cases h
            exact ⟨[], by rw [Cursor.next_rest hb, hb, hq]; rfl⟩
          case h_2 => cases h
        case isFalse hq =>
          split at h
          case isTrue he =>
            cases hread : readEscape c₁.next with
            | error fault => rw [hread] at h; cases h
            | ok r =>
              obtain ⟨bytes, c₂⟩ := r
              rw [hread, ok_bind] at h
              obtain ⟨qs, hqs⟩ := exists_content_of_readEscape hread
              obtain ⟨ps, hps⟩ := ih _ h
              refine ⟨qs ++ ps, ?_⟩
              rw [contentBytes, List.flatMap_append, List.append_assoc]
              rw [Cursor.next_rest hb, hps] at hqs
              rw [hb, he]
              exact hqs
          case isFalse he =>
            split at h
            case isTrue => cases h
            case isFalse hc =>
              obtain ⟨ps, hps⟩ := ih _ h
              refine ⟨.plain b ⟨hq, he, hc⟩ :: ps, ?_⟩
              rw [contentBytes_cons, List.append_assoc, ← hps, Cursor.next_rest hb, hb]
              rfl
  exact hloop _ _ h

end Chassis.Json
