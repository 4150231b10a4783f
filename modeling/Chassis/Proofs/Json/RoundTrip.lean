import Chassis.Json.Writer
import Chassis.Proofs.Json.Number
import Chassis.Proofs.Table

/-!
# What is written in JSON is read back

> **a value of any shape whose records have distinct keys is read back from its written form**
> (`Shape.readDocument_write`).

One writer and one reader serve all shapes, so one induction over the shapes serves every format of
the service. Its statement, `Reads`, is about a value in the middle of a text: whatever ends the
value is behind it, and line and column are arbitrary. Lists and objects are loops, and each loop
gets a lemma of its own about the part behind the first comma; an object is followed through its
members by `MembersRead`, which says what state each member leaves.

The fields that a record leaves out are the reason why `filled` stands between the two ends: after
the last member, exactly the fields that were written are filled, and `finish` puts the blank value
in place of the others, which is what the writer left out (`eq_blank_of_isBlank`).
-/

set_option autoImplicit false

namespace Chassis.Json

open Text Text.Utf8

/-! ## The statement -/

/-- Wherever the bytes stand, and whatever ends the value behind them, the reader takes them and
makes `a` of them. -/
def Reads {α : Type} (read : Cursor → Except Fault (α × Cursor)) (bytes : List UInt8) (a : α) :
    Prop :=
  ∀ (c : Cursor) (tail : List UInt8), EndsNumber tail → c.rest = bytes ++ tail →
    ∃ c', read c = .ok (a, c') ∧ c'.rest = tail

/-- The text of a value starts with a character of ASCII that is neither white space nor the end of
a list. -/
def StartsValue (text : List Char) : Prop :=
  ∃ ch rest, text = ch :: rest ∧ ch.toNat < 0x80 ∧ Cursor.isSpace ch = false ∧ ch ≠ ']'

theorem endsNumber_nil : EndsNumber [] := fun _ _ h => absurd h (by simp)

theorem endsNumber_cons {b : UInt8} {t : List UInt8} (hd : (Char.ofNat b.toNat).isDigit = false)
    (hp : Char.ofNat b.toNat ≠ '.') (he : Char.ofNat b.toNat ≠ 'e')
    (hE : Char.ofNat b.toNat ≠ 'E') : EndsNumber (b :: t) := by
  intro b' t' h
  obtain ⟨rfl, -⟩ := List.cons.inj h
  exact ⟨hd, hp, he, hE⟩

theorem endsNumber_comma (t : List UInt8) : EndsNumber (0x2C :: t) :=
  endsNumber_cons (by decide) (by decide) (by decide) (by decide)

theorem endsNumber_bracket (t : List UInt8) : EndsNumber (0x5D :: t) :=
  endsNumber_cons (by decide) (by decide) (by decide) (by decide)

theorem endsNumber_brace (t : List UInt8) : EndsNumber (0x7D :: t) :=
  endsNumber_cons (by decide) (by decide) (by decide) (by decide)

theorem length_le_encodeChars (cs : List Char) : cs.length ≤ (encodeChars cs).length := by
  induction cs with
  | nil => exact Nat.le_refl _
  | cons c cs ih =>
    have hpos : 0 < (encodeChar c).length := by
      unfold encodeChar
      simp only
      split <;> try split <;> try split
      all_goals simp
    rw [encodeChars_cons, List.length_append, List.length_cons]
    omega

/-! ## Commas -/

/-- Items behind the first one, each with its comma. -/
def continued (items : List (List Char)) : List Char := items.flatMap (',' :: ·)

theorem commaSeparated_cons (item : List Char) (items : List (List Char)) :
    commaSeparated (item :: items) = item ++ continued items := by
  induction items generalizing item with
  | nil => simp [commaSeparated, continued]
  | cons next rest ih =>
    rw [commaSeparated, ih next]
    · simp [continued]
    · simp

theorem continued_cons (item : List Char) (items : List (List Char)) :
    continued (item :: items) = ',' :: item ++ continued items := rfl

/-- There is a character to each item but one. -/
theorem length_le_commaSeparated (items : List (List Char)) :
    items.length ≤ (commaSeparated items).length + 1 := by
  cases items with
  | nil => simp
  | cons item rest =>
    have h : rest.length ≤ (continued rest).length := by
      induction rest with
      | nil => simp
      | cons x xs ih =>
        simp only [continued_cons, List.length_append, List.length_cons] at ih ⊢
        omega
    rw [commaSeparated_cons, List.length_append, List.length_cons]
    omega

/-! ## Marks between values -/

theorem ofNat_toUInt8 {ch : Char} (h : ch.toNat < 0x80) :
    Char.ofNat ch.toNat.toUInt8.toNat = ch := by
  rw [toNat_toUInt8 (by omega), Char.ofNat_toNat]

/-- At the start of a value there is no white space, and the next byte is not the end of a list. -/
theorem StartsValue.peek? {text : List Char} (hs : StartsValue text) {c : Cursor}
    {tail : List UInt8} (h : c.rest = encodeChars text ++ tail) :
    c.skipSpace = c ∧ ∃ ch, c.peek? = some ch ∧ ch ≠ ']' := by
  obtain ⟨ch, rest, rfl, hascii, hspace, hne⟩ := hs
  rw [encodeChars_cons, encodeChar_ascii hascii] at h
  refine ⟨Cursor.skipSpace_cons h (by rw [ofNat_toUInt8 hascii]; exact hspace), ch, ?_, hne⟩
  rw [Cursor.peek?_cons h, ofNat_toUInt8 hascii]

theorem skipSpace_comma {c : Cursor} {t : List UInt8} (h : c.rest = 0x2C :: t) :
    c.skipSpace = c ∧ c.peek? = some ',' :=
  ⟨Cursor.skipSpace_cons h (by decide), Cursor.peek?_cons h⟩

theorem skipSpace_bracket {c : Cursor} {t : List UInt8} (h : c.rest = 0x5D :: t) :
    c.skipSpace = c ∧ c.peek? = some ']' :=
  ⟨Cursor.skipSpace_cons h (by decide), Cursor.peek?_cons h⟩

theorem skipSpace_brace {c : Cursor} {t : List UInt8} (h : c.rest = 0x7D :: t) :
    c.skipSpace = c ∧ c.peek? = some '\x7d' :=
  ⟨Cursor.skipSpace_cons h (by decide), Cursor.peek?_cons h⟩

theorem skipSpace_quote {c : Cursor} {t : List UInt8} (h : c.rest = 0x22 :: t) :
    c.skipSpace = c ∧ c.peek? = some '"' :=
  ⟨Cursor.skipSpace_cons h (by decide), Cursor.peek?_cons h⟩

theorem closeList_bracket {c : Cursor} {t : List UInt8} (h : c.rest = 0x5D :: t) :
    closeList c = .ok c.next := by
  obtain ⟨hs, hp⟩ := skipSpace_bracket h
  simp only [closeList, hs, hp]

theorem closeObject_brace {c : Cursor} {t : List UInt8} (h : c.rest = 0x7D :: t) :
    closeObject c = .ok c.next := by
  obtain ⟨hs, hp⟩ := skipSpace_brace h
  simp only [closeObject, hs, hp]

/-! ## Lists -/

theorem nextElement_bracket (first : Bool) {c : Cursor} {t : List UInt8} (h : c.rest = 0x5D :: t) :
    nextElement first c = .ok (false, c) := by
  obtain ⟨hs, hp⟩ := skipSpace_bracket h
  simp only [nextElement, hs, hp]

theorem nextElement_first {c : Cursor} {ch : Char} (hs : c.skipSpace = c)
    (hp : c.peek? = some ch) (hne : ch ≠ ']') : nextElement true c = .ok (true, c) := by
  simp only [nextElement, hs, hp]
  rfl

theorem nextElement_comma {c : Cursor} {t : List UInt8} {ch : Char} (h : c.rest = 0x2C :: t)
    (hs : c.next.skipSpace = c.next) (hp : c.next.peek? = some ch) (hne : ch ≠ ']') :
    nextElement false c = .ok (true, c.next) := by
  obtain ⟨hs₀, hp₀⟩ := skipSpace_comma h
  simp only [nextElement, hs₀, hp₀, hs, hp]
  rfl

section Elements

variable {α : Type} {read : Cursor → Except Fault (α × Cursor)} {write : α → List Char}

theorem readElements_element {a : α} {as : List α} {bytes next : List UInt8} {fuel position : Nat}
    {c c₁ : Cursor} (hnext : nextElement (position == 0) c = .ok (true, c₁))
    (h : c₁.rest = bytes ++ next) (hread : Reads read bytes a) (hends : EndsNumber next)
    {tail : List UInt8}
    (hrest : ∀ c₂ : Cursor, c₂.rest = next →
      ∃ c', readElements read fuel (position + 1) c₂ = .ok (as, c') ∧ c'.rest = tail) :
    ∃ c', readElements read (fuel + 1) position c = .ok (a :: as, c') ∧ c'.rest = tail := by
  obtain ⟨c₂, hc₂, hr₂⟩ := hread c₁ next hends h
  obtain ⟨c', hc', hr'⟩ := hrest c₂ hr₂
  refine ⟨c', ?_, hr'⟩
  rw [readElements, hnext, ok_bind]
  simp only [↓reduceIte, hc₂]
  rw [show (Except.ok (a, c₂) : Except Fault (α × Cursor)).mapError (Fault.within (.index position))
    = .ok (a, c₂) from rfl, ok_bind, hc', ok_bind]

/-- The elements behind the first one are read, up to the end of the list. -/
theorem readElements_continued {tail : List UInt8} : ∀ (as : List α) (fuel position : Nat)
    {c : Cursor}, (∀ a ∈ as, Reads read (encodeChars (write a)) a ∧ StartsValue (write a)) →
    c.rest = encodeChars (continued (as.map write)) ++ 0x5D :: tail → as.length < fuel →
    0 < position →
    ∃ c', readElements read fuel position c = .ok (as, c') ∧ c'.rest = 0x5D :: tail := by
  intro as
  induction as with
  | nil =>
    intro fuel position c _ h hf hpos
    obtain ⟨fuel, rfl⟩ : ∃ n, fuel = n + 1 := ⟨fuel - 1, by omega⟩
    have h : c.rest = 0x5D :: tail := h
    refine ⟨c, ?_, h⟩
    rw [readElements, nextElement_bracket _ h, ok_bind]
    rfl
  | cons a as ih =>
    intro fuel position c hread h hf hpos
    obtain ⟨fuel, rfl⟩ : ∃ n, fuel = n + 1 := ⟨fuel - 1, by simp at hf; omega⟩
    obtain ⟨ha, hstart⟩ := hread a (by simp)
    rw [List.map_cons, continued_cons, encodeChars_append, List.append_assoc] at h
    have hcomma : c.rest = 0x2C :: (encodeChars (write a) ++
        (encodeChars (continued (as.map write)) ++ 0x5D :: tail)) := h
    have h₁ := Cursor.next_rest hcomma
    obtain ⟨hs₁, ch, hp₁, hne⟩ := hstart.peek? h₁
    have hnext : nextElement (position == 0) c = .ok (true, c.next) := by
      rw [show (position == 0) = false by simpa using by omega]
      exact nextElement_comma hcomma hs₁ hp₁ hne
    refine readElements_element hnext h₁ ha ?_ (fun c₂ hc₂ => ?_)
    -- Behind the element is the end of the list or the comma of the next one.
    · cases as with
      | nil => exact endsNumber_bracket tail
      | cons b bs => exact endsNumber_comma _
    · exact ih fuel (position + 1) (fun b hb => hread b (by simp [hb])) hc₂ (by simpa using hf)
        (by omega)

theorem readElements_commaSeparated {tail : List UInt8} (as : List α) {fuel : Nat} {c : Cursor}
    (hread : ∀ a ∈ as, Reads read (encodeChars (write a)) a ∧ StartsValue (write a))
    (h : c.rest = encodeChars (commaSeparated (as.map write)) ++ 0x5D :: tail)
    (hf : as.length < fuel) :
    ∃ c', readElements read fuel 0 c = .ok (as, c') ∧ c'.rest = 0x5D :: tail := by
  obtain ⟨fuel, rfl⟩ : ∃ n, fuel = n + 1 := ⟨fuel - 1, by omega⟩
  cases as with
  | nil =>
    have h : c.rest = 0x5D :: tail := h
    refine ⟨c, ?_, h⟩
    rw [readElements, nextElement_bracket _ h, ok_bind]
    rfl
  | cons a as =>
    obtain ⟨ha, hstart⟩ := hread a (by simp)
    rw [List.map_cons, commaSeparated_cons, encodeChars_append, List.append_assoc] at h
    obtain ⟨hs, ch, hp, hne⟩ := hstart.peek? h
    have hnext : nextElement ((0 : Nat) == 0) c = .ok (true, c) := nextElement_first hs hp hne
    refine readElements_element hnext h ha ?_ (fun c₂ hc₂ => ?_)
    · cases as with
      | nil => exact endsNumber_bracket tail
      | cons b bs => exact endsNumber_comma _
    · exact readElements_continued as fuel 1 (fun b hb => hread b (by simp [hb])) hc₂
        (by simpa using hf) (by decide)

/-- The elements between the marks of a list are read, and its end is passed. -/
theorem readElements_list {as : List α}
    (hread : ∀ a ∈ as, Reads read (encodeChars (write a)) a ∧ StartsValue (write a))
    {c : Cursor} {tail : List UInt8}
    (h : c.rest = encodeChars ('[' :: (commaSeparated (as.map write) ++ [']'])) ++ tail) :
    c.skipSpace = c ∧ c.peek? = some '[' ∧
      ∃ c₁, readElements read (c.rest.length + 1) 0 c.next = .ok (as, c₁) ∧
        closeList c₁ = .ok c₁.next ∧ c₁.next.rest = tail := by
  have hopen : c.rest = 0x5B :: (encodeChars (commaSeparated (as.map write)) ++
      0x5D :: tail) := by
    rw [h, encodeChars_cons, encodeChars_append, List.append_assoc, List.append_assoc]
    rfl
  -- Each element has a byte of its own, so the fuel outlasts them.
  have hf : as.length < c.rest.length + 1 := by
    have h₁ := length_le_commaSeparated (as.map write)
    have h₂ := length_le_encodeChars (commaSeparated (as.map write))
    rw [List.length_map] at h₁
    rw [hopen]
    simp only [List.length_cons, List.length_append]
    omega
  obtain ⟨c₁, hc₁, hr₁⟩ := readElements_commaSeparated as hread (Cursor.next_rest hopen) hf
  exact ⟨Cursor.skipSpace_cons hopen (by decide), Cursor.peek?_cons hopen, c₁, hc₁,
    closeList_bracket hr₁, Cursor.next_rest hr₁⟩

end Elements

/-! ## Objects -/

theorem nextKey_brace (first : Bool) {c : Cursor} {t : List UInt8} (h : c.rest = 0x7D :: t) :
    nextKey first c = .ok (false, c) := by
  obtain ⟨hs, hp⟩ := skipSpace_brace h
  simp only [nextKey, hs, hp]

theorem nextKey_first {c : Cursor} {t : List UInt8} (h : c.rest = 0x22 :: t) :
    nextKey true c = .ok (true, c) := by
  obtain ⟨hs, hp⟩ := skipSpace_quote h
  simp only [nextKey, hs, hp]
  rfl

theorem nextKey_comma {c : Cursor} {t : List UInt8} (h : c.rest = 0x2C :: 0x22 :: t) :
    nextKey false c = .ok (true, c.next) := by
  obtain ⟨hs₀, hp₀⟩ := skipSpace_comma h
  obtain ⟨hs, hp⟩ := skipSpace_quote (Cursor.next_rest h)
  simp only [nextKey, hs₀, hp₀, hs, hp]
  rfl

section Members

variable {σ : Type} (read : String → σ → Cursor → Except Fault (σ × Cursor))

/-- Reading members with these keys and texts, one after another, leads from one state to another.
What is read behind a key is the colon and the value. -/
inductive MembersRead : List (String × List Char) → σ → σ → Prop
  | nil (s : σ) : MembersRead [] s s
  | cons {key : String} {text : List Char} {members : List (String × List Char)} {s s' s'' : σ}
      (head : Reads (read key s) (encodeChars (':' :: text)) s')
      (rest : MembersRead members s' s'') : MembersRead ((key, text) :: members) s s''

variable {read}

def memberTexts (members : List (String × List Char)) : List (List Char) :=
  members.map fun m => writeMember m.1 m.2

/-- The text of a member: the key between its marks, and then what is read behind it. -/
theorem encodeChars_writeMember (key : String) (text : List Char) :
    encodeChars (writeMember key text) = 0x22 :: (encodeChars (key.toList.flatMap writeChar) ++
      0x22 :: encodeChars (':' :: text)) := by
  simp only [writeMember, writeText, List.cons_append, List.append_assoc, List.nil_append,
    encodeChars_append, encodeChars_cons]
  rfl

theorem readMembers_member {key : String} {text : List Char} {s s' s'' : σ} {next : List UInt8}
    {fuel : Nat} {first : Bool} {c c₁ : Cursor} (hnext : nextKey first c = .ok (true, c₁))
    (h : c₁.rest = encodeChars (writeMember key text) ++ next)
    (hread : Reads (read key s) (encodeChars (':' :: text)) s') (hends : EndsNumber next)
    {tail : List UInt8}
    (hrest : ∀ c₂ : Cursor, c₂.rest = next →
      ∃ c', readMembers read fuel false s' c₂ = .ok (s'', c') ∧ c'.rest = tail) :
    ∃ c', readMembers read (fuel + 1) first s c = .ok (s'', c') ∧ c'.rest = tail := by
  rw [encodeChars_writeMember, List.cons_append, List.append_assoc, List.cons_append] at h
  obtain ⟨c₂, hkey, hr₂⟩ := readText_writeText key (Cursor.next_rest h)
  obtain ⟨c₃, hvalue, hr₃⟩ := hread c₂ next hends hr₂
  obtain ⟨c', hc', hr'⟩ := hrest c₃ hr₃
  refine ⟨c', ?_, hr'⟩
  rw [readMembers, hnext, ok_bind]
  simp only [↓reduceIte, hkey]
  rw [ok_bind, hvalue, ok_bind, hc']

/-- The members behind the first one are read, up to the end of the object. -/
theorem readMembers_continued {tail : List UInt8} {members : List (String × List Char)} {s s' : σ}
    (hm : MembersRead read members s s') : ∀ (fuel : Nat) {c : Cursor},
    c.rest = encodeChars (continued (memberTexts members)) ++ 0x7D :: tail →
    members.length < fuel →
    ∃ c', readMembers read fuel false s c = .ok (s', c') ∧ c'.rest = 0x7D :: tail := by
  induction hm with
  | nil s =>
    intro fuel c h hf
    obtain ⟨fuel, rfl⟩ : ∃ n, fuel = n + 1 := ⟨fuel - 1, by omega⟩
    have h : c.rest = 0x7D :: tail := h
    refine ⟨c, ?_, h⟩
    rw [readMembers, nextKey_brace _ h, ok_bind]
    rfl
  | @cons key text members s s' s'' head rest ih =>
    intro fuel c h hf
    obtain ⟨fuel, rfl⟩ : ∃ n, fuel = n + 1 := ⟨fuel - 1, by simp at hf; omega⟩
    rw [memberTexts, List.map_cons, continued_cons, encodeChars_append, List.append_assoc] at h
    have hcomma : c.rest = 0x2C :: (encodeChars (writeMember key text) ++
        (encodeChars (continued (memberTexts members)) ++ 0x7D :: tail)) := h
    have hquote := hcomma
    rw [encodeChars_writeMember, List.cons_append] at hquote
    refine readMembers_member (nextKey_comma hquote) (Cursor.next_rest hcomma) head ?_
      (fun c₂ hc₂ => ?_)
    · cases members with
      | nil => exact endsNumber_brace tail
      | cons m ms => exact endsNumber_comma _
    · exact ih fuel hc₂ (by simpa using hf)

theorem readMembers_commaSeparated {tail : List UInt8} {members : List (String × List Char)}
    {s s' : σ} (hm : MembersRead read members s s') {fuel : Nat} {c : Cursor}
    (h : c.rest = encodeChars (commaSeparated (memberTexts members)) ++ 0x7D :: tail)
    (hf : members.length < fuel) :
    ∃ c', readMembers read fuel true s c = .ok (s', c') ∧ c'.rest = 0x7D :: tail := by
  obtain ⟨fuel, rfl⟩ : ∃ n, fuel = n + 1 := ⟨fuel - 1, by omega⟩
  cases hm with
  | nil =>
    have h : c.rest = 0x7D :: tail := h
    refine ⟨c, ?_, h⟩
    rw [readMembers, nextKey_brace _ h, ok_bind]
    rfl
  | @cons key text members _ s₁ _ head rest =>
    rw [memberTexts, List.map_cons, commaSeparated_cons, encodeChars_append,
      List.append_assoc] at h
    have hquote := h
    rw [encodeChars_writeMember, List.cons_append] at hquote
    refine readMembers_member (nextKey_first hquote) h head ?_ (fun c₂ hc₂ => ?_)
    · cases members with
      | nil => exact endsNumber_brace tail
      | cons m ms => exact endsNumber_comma _
    · exact readMembers_continued rest fuel hc₂ (by simpa using hf)

/-- The members between the marks of an object are read, and its end is passed. -/
theorem readMembers_object {members : List (String × List Char)} {s s' : σ}
    (hm : MembersRead read members s s') {c : Cursor} {tail : List UInt8}
    (h : c.rest = encodeChars ('\x7b' :: (commaSeparated (memberTexts members) ++ ['\x7d'])) ++
      tail) :
    c.skipSpace = c ∧ c.peek? = some '\x7b' ∧
      ∃ c₁, readMembers read (c.rest.length + 1) true s c.next = .ok (s', c₁) ∧
        closeObject c₁ = .ok c₁.next ∧ c₁.next.rest = tail := by
  have hopen : c.rest = 0x7B :: (encodeChars (commaSeparated (memberTexts members)) ++
      0x7D :: tail) := by
    rw [h, encodeChars_cons, encodeChars_append, List.append_assoc, List.append_assoc]
    rfl
  have hf : members.length < c.rest.length + 1 := by
    have h₁ := length_le_commaSeparated (memberTexts members)
    have h₂ := length_le_encodeChars (commaSeparated (memberTexts members))
    rw [memberTexts, List.length_map] at h₁
    rw [hopen]
    simp only [List.length_cons, List.length_append]
    rw [memberTexts] at h₂ ⊢
    omega
  obtain ⟨c₁, hread, hr₁⟩ := readMembers_commaSeparated hm (Cursor.next_rest hopen) hf
  exact ⟨Cursor.skipSpace_cons hopen (by decide), Cursor.peek?_cons hopen, c₁, hread,
    closeObject_brace hr₁, Cursor.next_rest hr₁⟩

end Members

/-! ## Values without parts, and tables -/

/-- The value of a member is read behind its colon. -/
theorem readMemberValue_colon {α : Type} {read : Cursor → Except Fault (α × Cursor)} (key : String)
    {text : List Char} {a : α} (hread : Reads read (encodeChars text) a) :
    Reads (readMemberValue read key) (encodeChars (':' :: text)) a := by
  intro c tail hends h
  have h : c.rest = 0x3A :: (encodeChars text ++ tail) := h
  have hs : c.skipSpace = c := Cursor.skipSpace_cons h (by decide)
  have hp : c.peek? = some ':' := Cursor.peek?_cons h
  obtain ⟨c', hc', hr'⟩ := hread c.next tail hends (Cursor.next_rest h)
  refine ⟨c', ?_, hr'⟩
  have hcolon : readColon c = .ok c.next := by simp only [readColon, hs, hp]
  rw [readMemberValue, hcolon, ok_bind, hc']
  rfl

theorem readTextValue_writeText (s : String) :
    Reads readTextValue (encodeChars (writeText s)) s := by
  intro c tail _ h
  rw [writeText, encodeChars_cons, encodeChars_append, List.append_assoc, List.append_assoc] at h
  have h : c.rest = 0x22 :: (encodeChars (s.toList.flatMap writeChar) ++ 0x22 :: tail) := h
  obtain ⟨hs, hp⟩ := skipSpace_quote h
  obtain ⟨c', hc', hr'⟩ := readText_writeText s (Cursor.next_rest h)
  refine ⟨c', ?_, hr'⟩
  simp only [readTextValue, hs, hp, hc']

/-- The entries of a table are put under their keys one after another. -/
theorem membersRead_entries : ∀ (es : List (String × String)) (t : Table),
    MembersRead readEntry (es.map fun e => (e.1, writeText e.2)) t
      (es.foldl (fun t e => t.insert e.1 e.2) t)
  | [], t => .nil t
  | (key, value) :: es, t => by
    refine .cons ?_ (membersRead_entries es (t.insert key value))
    intro c tail hends h
    obtain ⟨c', hc', hr'⟩ :=
      readMemberValue_colon key (readTextValue_writeText value) c tail hends h
    exact ⟨c', by rw [readEntry, hc', ok_bind], hr'⟩

theorem readTable_write (t : Table) : Reads readTable (encodeChars (Shape.table.write t)) t := by
  intro c tail _ h
  have hm := membersRead_entries t.entries Table.empty
  rw [show t.entries.foldl (fun t e => t.insert e.1 e.2) Table.empty = t from
    Table.ofList_eq_of_perm (.refl _)] at hm
  have htexts : Shape.table.write t = '\x7b' :: (commaSeparated
      (memberTexts (t.entries.map fun e => (e.1, writeText e.2))) ++ ['\x7d']) := by
    rw [memberTexts, List.map_map]
    rfl
  rw [htexts] at h
  obtain ⟨hs, hp, c₁, hread, hclose, hr₁⟩ := readMembers_object hm h
  refine ⟨c₁.next, ?_, hr₁⟩
  simp only [readTable, hs, hp, hread]
  rw [ok_bind, hclose, ok_bind]

/-! ## Records -/

def Fields.keys : Fields → List String
  | .nil => []
  | .cons key _ _ rest => key :: rest.keys

mutual

/-- No record of the shape has two fields with one key. -/
def Shape.distinctKeys : Shape → Bool
  | .text => true
  | .word16 => true
  | .table => true
  | .list item => item.distinctKeys
  | .record _ fields => fields.distinctKeys

/-- No two of the fields have one key, nor do any further in. -/
def Fields.distinctKeys : Fields → Bool
  | .nil => true
  | .cons key _ shape rest =>
    !rest.keys.contains key && shape.distinctKeys && rest.distinctKeys

end

/-- A field is left out of the text. -/
def isLeftOut (presence : Presence) (shape : Shape) (v : shape.Value) : Bool :=
  decide (presence = .omitted) && shape.isBlank v

/-- The keys and texts of the fields that are written. -/
def Fields.members : (fs : Fields) → fs.Value → List (String × List Char)
  | .nil => fun _ => []
  | .cons key presence shape rest => fun (v : shape.Value × rest.Value) =>
    if isLeftOut presence shape v.1 then rest.members v.2
    else (key, shape.write v.1) :: rest.members v.2

/-- The fields that were read when the object ends: those that were written. -/
def Fields.filled : (fs : Fields) → fs.Value → fs.Slots
  | .nil => fun _ => ()
  | .cons _ presence shape rest => fun (v : shape.Value × rest.Value) =>
    (if isLeftOut presence shape v.1 then none else some v.1, rest.filled v.2)

/-- Reads what follows a key: the value of a field, or one that nobody asked for. -/
def Fields.take (fs : Fields) (key : String) (slots : fs.Slots) (c : Cursor) :
    Except Fault (fs.Slots × Cursor) :=
  match fs.readMember key slots c with
  | some r => r
  | none => do .ok (slots, ← skipMemberValue key c)

theorem Fields.write_eq_memberTexts : ∀ (fs : Fields) (v : fs.Value),
    fs.write v = memberTexts (fs.members v)
  | .nil, _ => rfl
  | .cons key presence shape rest, (v, vs) => by
    have ih := Fields.write_eq_memberTexts rest vs
    by_cases h : isLeftOut presence shape v = true
    · have h' : presence = .omitted ∧ shape.isBlank v = true := by simpa [isLeftOut] using h
      simp only [Fields.write, Fields.members, if_pos h, if_pos h', ih]
    · have h' : ¬ (presence = .omitted ∧ shape.isBlank v = true) := by simpa [isLeftOut] using h
      simp only [Fields.write, Fields.members, if_neg h, if_neg h', ih]
      rfl

theorem Fields.mem_keys_of_mem_members : ∀ {fs : Fields} {v : fs.Value}
    {m : String × List Char}, m ∈ fs.members v → m.1 ∈ fs.keys
  | .nil, _, _, h => absurd h (by simp [Fields.members])
  | .cons key presence shape rest, (v, vs), m, h => by
    simp only [Fields.members] at h
    split at h
    · exact List.mem_cons_of_mem _ (Fields.mem_keys_of_mem_members h)
    · rcases List.mem_cons.1 h with rfl | h
      · exact List.mem_cons_self
      · exact List.mem_cons_of_mem _ (Fields.mem_keys_of_mem_members h)

/-- The only blank value of a shape is its blank value. -/
theorem Shape.eq_blank_of_isBlank : ∀ (s : Shape) (v : s.Value), s.isBlank v = true → v = s.blank
  | .text, v, h => by
    have key : ∀ s : String, (s == "") = true → s = "" := fun _ hs => eq_of_beq hs
    exact key v h
  | .word16, _, h => absurd h (by simp [Shape.isBlank])
  | .table, v, h => by
    have h : Table.isEmpty v = true := h
    exact Table.ext' (List.isEmpty_iff.1 h)
  | .list item, v, h => by
    have key : ∀ xs : List item.Value, xs.isEmpty = true → xs = [] := fun _ => List.isEmpty_iff.1
    exact key v h
  | .record _ _, _, h => absurd h (by simp [Shape.isBlank])

/-- What was left out is blank, so nothing is missing in the end. -/
theorem Fields.finish_filled : ∀ (fs : Fields) (v : fs.Value), fs.finish (fs.filled v) = .ok v
  | .nil, _ => rfl
  | .cons key presence shape rest, (v, vs) => by
    have ih := Fields.finish_filled rest vs
    by_cases h : isLeftOut presence shape v = true
    · obtain ⟨hp, hb⟩ : presence = .omitted ∧ shape.isBlank v = true := by
        simpa [isLeftOut] using h
      have hblank := Shape.eq_blank_of_isBlank shape v hb
      have hreq : ¬ presence = .required := by simp [hp]
      simp only [Fields.filled, if_pos h, Fields.finish, if_neg hreq, ih, ok_bind, ← hblank]
    · simp only [Fields.filled, if_neg h, Fields.finish, ih, ok_bind]

/-- A member with another key is none of the first field's business. -/
theorem Fields.take_cons_ne {name key : String} {presence : Presence} {shape : Shape}
    {rest : Fields} (h : ¬ key = name) (slot : Option shape.Value) (slots : rest.Slots)
    (c : Cursor) : (Fields.cons name presence shape rest).take key (slot, slots) c =
      (rest.take key slots c).map fun r => ((slot, r.1), r.2) := by
  simp only [Fields.take, Fields.readMember, if_neg h]
  cases rest.readMember key slots c with
  | none => cases skipMemberValue key c <;> rfl
  | some r => cases r <;> rfl

/-- The member of a field that was not read yet fills it. -/
theorem Fields.reads_take_cons {name : String} {presence : Presence} {shape : Shape}
    {rest : Fields} {v : shape.Value} (hread : Reads shape.read (encodeChars (shape.write v)) v)
    (slots : rest.Slots) :
    Reads ((Fields.cons name presence shape rest).take name (none, slots))
      (encodeChars (':' :: shape.write v)) (some v, slots) := by
  intro c tail hends h
  obtain ⟨c', hc', hr'⟩ := readMemberValue_colon name hread c tail hends h
  refine ⟨c', ?_, hr'⟩
  simp only [Fields.take, Fields.readMember, ↓reduceIte, hc', ok_bind]

/-- The members of later fields are read as if the first field were not there. -/
theorem Fields.membersRead_cons {name : String} {presence : Presence} {shape : Shape}
    {rest : Fields} (slot : Option shape.Value) {members : List (String × List Char)}
    {s s' : rest.Slots} (hm : MembersRead rest.take members s s')
    (hne : ∀ m ∈ members, ¬ m.1 = name) :
    MembersRead (Fields.cons name presence shape rest).take members (slot, s) (slot, s') := by
  induction hm with
  | nil s => exact .nil (slot, s)
  | @cons key text members s₁ s₂ s₃ head _ ih =>
    refine .cons ?_ (ih fun m hm => hne m (by simp [hm]))
    intro c tail hends h
    obtain ⟨c', hc', hr'⟩ := head c tail hends h
    refine ⟨c', ?_, hr'⟩
    have hkey : ¬ key = name := hne (key, text) (by simp)
    rw [Fields.take_cons_ne hkey, hc']
    rfl

/-! ## Every shape -/

theorem Shape.startsValue_write : ∀ (s : Shape) (v : s.Value), StartsValue (s.write v)
  | .text, _ => ⟨'"', _, rfl, by decide, by decide, by decide⟩
  | .word16, v => by
    have hw : Shape.word16.write v = Nat.toDigits 10 (UInt16.toNat v) := by
      simp [Shape.write]
    cases hds : Nat.toDigits 10 (UInt16.toNat v) with
    | nil => exact absurd hds Nat.toDigits_ne_nil
    | cons d ds =>
      have hmem : d ∈ Nat.toDigits 10 (UInt16.toNat v) := by simp [hds]
      have hdig : d.isDigit = true := Nat.isDigit_of_mem_toDigits (by decide) (by decide) hmem
      refine ⟨d, ds, hw.trans hds, ascii_of_isDigit hdig, isSpace_of_isDigit hdig, ?_⟩
      rintro rfl
      exact absurd hdig (by decide)
  | .table, _ => ⟨'\x7b', _, rfl, by decide, by decide, by decide⟩
  | .list _, _ => ⟨'[', _, rfl, by decide, by decide, by decide⟩
  | .record _ _, _ => ⟨'\x7b', _, rfl, by decide, by decide, by decide⟩

/-- An object whose members fill all the fields that may not be missing is read as a record. -/
theorem Shape.read_record {name : String} {fields : Fields} {slots : fields.Slots}
    {v : fields.Value} {c c₁ c₂ : Cursor} (hs : c.skipSpace = c) (hp : c.peek? = some '\x7b')
    (hread : readMembers fields.take (c.rest.length + 1) true fields.noSlots c.next =
      .ok (slots, c₁)) (hfinish : fields.finish slots = .ok v) (hclose : closeObject c₁ = .ok c₂) :
    (Shape.record name fields).read c = .ok (v, c₂) := by
  have hread' : readMembers (fun key slots c =>
      match fields.readMember key slots c with
      | some r => r
      | none => do .ok (slots, ← skipMemberValue key c))
      (c.rest.length + 1) true fields.noSlots c.next = .ok (slots, c₁) := hread
  simp only [Shape.read, hs, hp]
  refine (congrArg (· >>= _) hread').trans ?_
  rw [ok_bind]
  simp only [hfinish, hclose, ok_bind]

mutual

/-- **What is written is read back**, in the middle of a text. -/
theorem Shape.reads_write : ∀ (s : Shape), s.distinctKeys = true → ∀ v : s.Value,
    Reads s.read (encodeChars (s.write v)) v
  | .text, _, v => readTextValue_writeText v
  | .word16, _, v => by
    intro c tail hends h
    have hw : Shape.word16.write v = Nat.toDigits 10 (UInt16.toNat v) := by
      simp [Shape.write]
    exact readWord16_toDigits v hends (hw ▸ h)
  | .table, _, v => readTable_write v
  | .list item, hk, v => by
    intro c tail _ h
    obtain ⟨hs, hp, c₁, hread, hclose, hr₁⟩ := readElements_list
      (fun a _ => ⟨Shape.reads_write item hk a, item.startsValue_write a⟩) h
    refine ⟨c₁.next, ?_, hr₁⟩
    simp only [Shape.read, hs, hp, hread]
    rw [ok_bind, hclose, ok_bind]
  | .record name fields, hk, v => by
    intro c tail _ h
    have hm := Fields.membersRead_members fields hk v
    have htexts : (Shape.record name fields).write v =
        '\x7b' :: (commaSeparated (memberTexts (fields.members v)) ++ ['\x7d']) :=
      congrArg (fun texts => '\x7b' :: (commaSeparated texts ++ ['\x7d']))
        (Fields.write_eq_memberTexts fields v)
    rw [htexts] at h
    obtain ⟨hs, hp, c₁, hread, hclose, hr₁⟩ := readMembers_object hm h
    refine ⟨c₁.next, ?_, hr₁⟩
    exact Shape.read_record hs hp hread (fields.finish_filled v) hclose

/-- The fields that were written are filled, and no others. -/
theorem Fields.membersRead_members : ∀ (fs : Fields), fs.distinctKeys = true → ∀ v : fs.Value,
    MembersRead fs.take (fs.members v) fs.noSlots (fs.filled v)
  | .nil, _, _ => .nil _
  | .cons name presence shape rest, hk, (v, vs) => by
    obtain ⟨⟨hname, hshape⟩, hrest⟩ : (name ∉ rest.keys ∧ shape.distinctKeys = true) ∧
        rest.distinctKeys = true := by
      simpa [Fields.distinctKeys] using hk
    have hne : ∀ m ∈ rest.members vs, ¬ m.1 = name := by
      intro m hm he
      exact hname (he ▸ Fields.mem_keys_of_mem_members hm)
    have ih := Fields.membersRead_members rest hrest vs
    -- A blank field is not written, so its slot stays empty; any other is filled first.
    by_cases h : isLeftOut presence shape v = true
    · simp only [Fields.members, Fields.filled, if_pos h]
      exact Fields.membersRead_cons none ih hne
    · simp only [Fields.members, Fields.filled, if_neg h]
      refine .cons (Fields.reads_take_cons (Shape.reads_write shape hshape v) rest.noSlots) ?_
      exact Fields.membersRead_cons (some v) ih hne

end

/-! ## Whole texts -/

theorem readEnd_nil {c : Cursor} (h : c.rest = []) : readEnd c = .ok () := by
  rw [readEnd, Cursor.skipSpace, Cursor.skipWhile_nil h]
  simp [h]

/-- **What is written is read back**, as a whole text. -/
theorem Shape.readDocument_write (s : Shape) (hk : s.distinctKeys = true) (v : s.Value) :
    s.readDocument (encodeChars (s.write v)) = .ok v := by
  obtain ⟨c, hc, hr⟩ := s.reads_write hk v (.ofBytes (encodeChars (s.write v))) [] endsNumber_nil
    (List.append_nil _).symm
  rw [Shape.readDocument, hc, ok_bind]
  simp only [readEnd_nil hr, ok_bind]

/-- **What is encoded is decoded again.** -/
theorem Layout.decode_encode {α : Type} (l : Layout α) (hk : l.shape.distinctKeys = true) (a : α) :
    l.decode (Utf8.encode (l.encode a)) = .ok a := by
  rw [Layout.decode, Layout.encode, Utf8.encode, String.toList_ofList,
    l.shape.readDocument_write hk]
  exact congrArg Except.ok (l.ofValue_toValue a)

/-- White space behind a text does not count. -/
theorem Layout.decode_encode_append_spaces {α : Type} (l : Layout α)
    (hk : l.shape.distinctKeys = true) (a : α) (n : Nat) :
    l.decode (Utf8.encode (l.encode a) ++ List.replicate n 0x20) = .ok a := by
  have hspaces : EndsNumber (List.replicate n 0x20) := by
    cases n with
    | zero => exact endsNumber_nil
    | succ n => exact endsNumber_cons (by decide) (by decide) (by decide) (by decide)
  obtain ⟨c, hc, hr⟩ := l.shape.reads_write hk (l.toValue a) (.ofBytes _) _ hspaces rfl
  have hend : readEnd c = .ok () := by
    have hrest : c.skipSpace.rest = [] := by
      refine Cursor.rest_skipWhile fun b hb => ?_
      rw [hr] at hb
      obtain rfl := List.eq_of_mem_replicate hb
      rfl
    rw [readEnd]
    simp only [hrest]
    rfl
  rw [Layout.decode, Layout.encode, Utf8.encode, String.toList_ofList, Shape.readDocument, hc,
    ok_bind]
  simp only [hend, ok_bind]
  exact congrArg Except.ok (l.ofValue_toValue a)

end Chassis.Json
