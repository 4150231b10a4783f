import Chassis.Proofs.Json.Skipping

/-!
# Reading is spelling

> **Where a value is ahead, the reader of a shape gives what the value spells for that shape, and
> fails where it spells nothing** (`Shape.spelled`).

The reader takes a text from left to right, and a fault ends it; what a value spells is said of the
value as a whole. So each loop of the reader is compared with a map or a fold over the parts of the
value: the elements of a list with `mapM`, the members of an object with `foldlM`. A record is where
the two differ most. The reader fills its slots in the order of the text (`Fields.fill?`), the
specification looks every field up among all members (`Fields.ofMembers?`), and `Fields.slotted?`,
which has some fields filled already, stands between them.
-/

set_option autoImplicit false

namespace Chassis.Json

open Text

/-- Wherever a value is ahead, the reader gives what is told of the value. -/
def Spelled {α : Type} (read : Cursor → Except Fault (α × Cursor)) (spell? : Form → Option α) :
    Prop :=
  ∀ (f : Form) {c : Cursor} {tail : List UInt8}, c.skipSpace.rest = f.bytes ++ tail →
    EndsNumber tail → Yields (read c) (spell? f) tail

/-! ## Telling values apart -/

/-- The character that a value starts with; numbers have more than one. -/
def Form.mark? : Form → Option Char
  | .null => some 'n'
  | .boolean true => some 't'
  | .boolean false => some 'f'
  | .number _ => none
  | .text _ => some '"'
  | .list _ _ => some '['
  | .object _ _ => some '\x7b'

theorem Form.peek?_of_mark? {f : Form} {ch : Char} (hf : f.mark? = some ch) {c : Cursor}
    {tail : List UInt8} (h : c.rest = f.bytes ++ tail) : c.peek? = some ch := by
  cases f with
  | number n => cases hf
  | boolean b =>
    cases b with
    | true => cases hf; exact Cursor.peek?_cons h
    | false => cases hf; exact Cursor.peek?_cons h
  | null => cases hf; exact Cursor.peek?_cons h
  | text ps => cases hf; exact Cursor.peek?_cons h
  | list gap items => cases hf; exact Cursor.peek?_cons h
  | object gap members => cases hf; exact Cursor.peek?_cons h

theorem Numeral.exists_peek? (n : Numeral) {c : Cursor} {tail : List UInt8}
    (h : c.rest = n.bytes ++ tail) :
    ∃ d, c.peek? = some d ∧ (d = '-' ∨ d.isDigit = true) := by
  rw [Numeral.bytes] at h
  split at h
  case isTrue => exact ⟨'-', Cursor.peek?_cons h, .inl rfl⟩
  case isFalse =>
    rw [Numeral.magnitude, List.append_assoc] at h
    have hdigit := Cursor.atDigit_digits n.whole h
    obtain ⟨d, hd, hdig⟩ := (Option.any_eq_true _ _).1 hdigit
    exact ⟨d, hd, .inr hdig⟩

/-- A value that starts with a character of its own is known by it. -/
theorem Form.mark?_of_peek? {f : Form} {c : Cursor} {tail : List UInt8} {ch : Char}
    (h : c.rest = f.bytes ++ tail) (hp : c.peek? = some ch) (hminus : ch ≠ '-')
    (hdigit : ch.isDigit = false) : f.mark? = some ch := by
  cases hf : f.mark? with
  | some m =>
    rw [Form.peek?_of_mark? hf h] at hp
    exact hp
  | none =>
    cases f with
    | number n =>
      obtain ⟨d, hd, hmark⟩ := n.exists_peek? h
      rw [hd] at hp
      cases hp
      rcases hmark with rfl | hdig
      · exact absurd rfl hminus
      · rw [hdigit] at hdig
        cases hdig
    | boolean b => cases b <;> cases hf
    | null => cases hf
    | text ps => cases hf
    | list gap items => cases hf
    | object gap members => cases hf

theorem Form.exists_text {f : Form} {c : Cursor} {tail : List UInt8} (h : c.rest = f.bytes ++ tail)
    (hp : c.peek? = some '"') : ∃ ps, f = .text ps := by
  have hmark := Form.mark?_of_peek? h hp (by decide) (by decide)
  cases f with
  | text ps => exact ⟨ps, rfl⟩
  | boolean b => cases b <;> cases hmark
  | _ => cases hmark

theorem Form.exists_list {f : Form} {c : Cursor} {tail : List UInt8} (h : c.rest = f.bytes ++ tail)
    (hp : c.peek? = some '[') : ∃ gap es, f = .list gap es := by
  have hmark := Form.mark?_of_peek? h hp (by decide) (by decide)
  cases f with
  | list gap es => exact ⟨gap, es, rfl⟩
  | boolean b => cases b <;> cases hmark
  | _ => cases hmark

theorem Form.exists_object {f : Form} {c : Cursor} {tail : List UInt8}
    (h : c.rest = f.bytes ++ tail) (hp : c.peek? = some '\x7b') :
    ∃ gap ms, f = .object gap ms := by
  have hmark := Form.mark?_of_peek? h hp (by decide) (by decide)
  cases f with
  | object gap ms => exact ⟨gap, ms, rfl⟩
  | boolean b => cases b <;> cases hmark
  | _ => cases hmark

/-! ## Values without parts -/

theorem readTextValue_spelled : Spelled readTextValue Form.text? := by
  intro f c tail h _
  rw [readTextValue]
  split
  case h_1 hp =>
    obtain ⟨ps, rfl⟩ := Form.exists_text h hp
    rw [Form.bytes, stringBytes, List.cons_append, List.append_assoc] at h
    exact readText_content ps (Cursor.next_rest h)
  case h_2 hp =>
    cases f with
    | text ps => exact absurd (Form.peek?_of_mark? rfl h) hp
    | _ => exact yields_failType _ _ _

theorem readWord16_spelled : Spelled readWord16 Form.word16? := by
  intro f c tail h ht
  cases hn : f.mark? with
  | none =>
    cases f with
    | number n => exact readWord16_numeral n h ht
    | boolean b => cases b <;> cases hn
    | _ => cases hn
  | some ch =>
    -- The value starts with a mark, and every number that is read with a digit or a sign.
    have hnone : f.natural? = none := by
      cases f with
      | number n => cases hn
      | _ => rfl
    rw [Form.word16?, hnone, Option.bind_none]
    refine exists_error fun r hread => ?_
    obtain ⟨v, c'⟩ := r
    obtain ⟨n, hr⟩ := (of_readWord16 hread).1
    obtain ⟨d, hd, hdigit⟩ := n.exists_peek? hr
    obtain rfl : ch = d := Option.some.inj ((Form.peek?_of_mark? hn h).symm.trans hd)
    cases f with
    | boolean b => cases b <;> cases hn <;> simp at hdigit
    | number n => cases hn
    | _ => cases hn; simp at hdigit

/-! ## Lists -/

theorem nextElement_nil (first : Bool) (gap : Gap) {c : Cursor} {tail : List UInt8}
    (h : c.rest = gap.bytes ++ 0x5D :: tail) :
    nextElement first c = .ok (false, c.skipSpace) ∧ c.skipSpace.rest = 0x5D :: tail := by
  have hclose := Cursor.skipSpace_gap gap h (by decide)
  have hp : c.skipSpace.peek? = some ']' := Cursor.peek?_cons hclose
  refine ⟨?_, hclose⟩
  simp only [nextElement, hp]

/-- Where an element is ahead, behind its comma if there is one, it is gone to. -/
theorem nextElement_cons (first : Bool) (gap before : Gap) (f : Form) {c : Cursor}
    {tail : List UInt8}
    (h : c.rest = gap.bytes ++ (comma first ++ (before.bytes ++ (f.bytes ++ tail)))) :
    ∃ c₁, nextElement first c = .ok (true, c₁) ∧ c₁.skipSpace.rest = f.bytes ++ tail := by
  obtain ⟨b, t, hb, -, hne⟩ := f.exists_first
  have hmark (c₁ : Cursor) (h₁ : c₁.rest = f.bytes ++ tail) :
      ∃ ch, c₁.peek? = some ch ∧ ch ≠ ']' := by
    rw [hb] at h₁
    refine ⟨_, Cursor.peek?_cons h₁, fun he => hne ?_⟩
    rw [eq_of_ofNat_toNat he]
    rfl
  cases first with
  | true =>
    have hfirst : c.skipSpace.rest = f.bytes ++ tail := skipSpace_gaps gap before f h
    obtain ⟨ch, hp, hch⟩ := hmark _ hfirst
    refine ⟨c.skipSpace, ?_, skipSpace_form Gap.none f hfirst⟩
    simp only [nextElement, hp]
    rfl
  | false =>
    have hcomma : c.skipSpace.rest = 0x2C :: (before.bytes ++ (f.bytes ++ tail)) :=
      Cursor.skipSpace_gap gap h (by decide)
    have hnext := skipSpace_form before f (Cursor.next_rest hcomma)
    obtain ⟨ch, hp, hch⟩ := hmark _ hnext
    have hp₀ : c.skipSpace.peek? = some ',' := Cursor.peek?_cons hcomma
    refine ⟨c.skipSpace.next.skipSpace, ?_, skipSpace_form Gap.none f hnext⟩
    simp only [nextElement, hp₀, hp]
    rfl

theorem closeList_gap (gap : Gap) {c : Cursor} {tail : List UInt8}
    (h : c.rest = gap.bytes ++ 0x5D :: tail) : Passes (closeList c) tail := by
  have hclose := Cursor.skipSpace_gap gap h (by decide)
  have hp : c.skipSpace.peek? = some ']' := Cursor.peek?_cons hclose
  exact ⟨c.skipSpace.next, by simp only [closeList, hp], Cursor.next_rest hclose⟩

section Elements

variable {α : Type} {read : Cursor → Except Fault (α × Cursor)} {spell? : Form → Option α}

theorem readElements_elements (hread : Spelled read spell?) {tail : List UInt8} :
    ∀ (es : Elements) (fuel position : Nat) (gap : Gap) {c : Cursor},
      c.rest = gap.bytes ++ (es.bytes (position == 0) ++ 0x5D :: tail) → c.rest.length < fuel →
      Yields (readElements read fuel position c) (es.toList.mapM spell?) (0x5D :: tail)
  | .nil, fuel, position, gap, c, h, hfuel => by
    obtain ⟨fuel, rfl⟩ : ∃ n, fuel = n + 1 := ⟨fuel - 1, by omega⟩
    obtain ⟨hnext, hr⟩ := nextElement_nil (position == 0) gap h
    refine ⟨c.skipSpace, ?_, hr⟩
    rw [readElements, hnext, ok_bind]
    rfl
  | .cons before f after es, fuel, position, gap, c, h, hfuel => by
    obtain ⟨fuel, rfl⟩ : ∃ n, fuel = n + 1 := ⟨fuel - 1, by omega⟩
    simp only [Elements.bytes, List.append_assoc] at h
    obtain ⟨c₁, hnext, hr₁⟩ := nextElement_cons (position == 0) gap before f h
    rw [readElements, hnext, ok_bind]
    simp only [↓reduceIte]
    rw [Elements.toList, List.mapM_cons]
    have hends := endsNumber_gap after (endsNumber_elements es tail)
    refine Yields.bind ((hread f hr₁ hends).mapError _) fun a c₂ hr₂ => ?_
    refine Yields.bind (readElements_elements hread es fuel (position + 1) after hr₂ ?_)
      fun as c₃ hr₃ => yields_ok _ hr₃
    -- A value has at least one byte.
    obtain ⟨b, t, hb, -, -⟩ := f.exists_first
    rw [h, hb] at hfuel
    rw [hr₂]
    simp only [List.length_append, List.length_cons] at hfuel ⊢
    omega

end Elements

theorem Shape.spelled_list {item : Shape} (hitem : Spelled item.read item.ofForm?) :
    Spelled (Shape.list item).read (Shape.list item).ofForm? := by
  intro f c tail h _
  rw [Shape.read, Shape.ofForm?]
  dsimp only
  split
  case h_1 hp =>
    obtain ⟨gap, es, rfl⟩ := Form.exists_list h hp
    simp only [Form.bytes, List.cons_append, List.append_assoc, List.nil_append] at h
    exact (readElements_elements hitem es _ 0 gap (Cursor.next_rest h)
      (Cursor.length_next_lt _)).close fun c₁ hr₁ => closeList_gap Gap.none hr₁
  case h_2 hp =>
    cases f with
    | list gap es => exact absurd (Form.peek?_of_mark? rfl h) hp
    | _ => exact yields_failType _ _ _

/-! ## Objects -/

theorem nextKey_nil (first : Bool) (gap : Gap) {c : Cursor} {tail : List UInt8}
    (h : c.rest = gap.bytes ++ 0x7D :: tail) :
    nextKey first c = .ok (false, c.skipSpace) ∧ c.skipSpace.rest = 0x7D :: tail := by
  have hclose := Cursor.skipSpace_gap gap h (by decide)
  have hp : c.skipSpace.peek? = some '\x7d' := Cursor.peek?_cons hclose
  refine ⟨?_, hclose⟩
  simp only [nextKey, hp]

/-- Where a member is ahead, behind its comma if there is one, its key is gone to. -/
theorem nextKey_cons (first : Bool) (gap before : Gap) {c : Cursor} {t : List UInt8}
    (h : c.rest = gap.bytes ++ (comma first ++ (before.bytes ++ 0x22 :: t))) :
    ∃ c₁, nextKey first c = .ok (true, c₁) ∧ c₁.rest = 0x22 :: t := by
  cases first with
  | true =>
    have hquote : c.skipSpace.rest = 0x22 :: t := by
      refine Cursor.skipSpace_gap (gap.append before) ?_ (by decide)
      rw [h, Gap.append, List.append_assoc]
      rfl
    have hp : c.skipSpace.peek? = some '"' := Cursor.peek?_cons hquote
    refine ⟨c.skipSpace, ?_, hquote⟩
    simp only [nextKey, hp]
    rfl
  | false =>
    have hcomma : c.skipSpace.rest = 0x2C :: (before.bytes ++ 0x22 :: t) :=
      Cursor.skipSpace_gap gap h (by decide)
    have hquote := Cursor.skipSpace_gap before (Cursor.next_rest hcomma) (by decide)
    have hp₀ : c.skipSpace.peek? = some ',' := Cursor.peek?_cons hcomma
    have hp : c.skipSpace.next.skipSpace.peek? = some '"' := Cursor.peek?_cons hquote
    refine ⟨c.skipSpace.next.skipSpace, ?_, hquote⟩
    simp only [nextKey, hp₀, hp]
    rfl

theorem readColon_gap (gap : Gap) {c : Cursor} {tail : List UInt8}
    (h : c.rest = gap.bytes ++ 0x3A :: tail) : Passes (readColon c) tail := by
  have hcolon := Cursor.skipSpace_gap gap h (by decide)
  have hp : c.skipSpace.peek? = some ':' := Cursor.peek?_cons hcolon
  exact ⟨c.skipSpace.next, by simp only [readColon, hp], Cursor.next_rest hcolon⟩

theorem closeObject_gap (gap : Gap) {c : Cursor} {tail : List UInt8}
    (h : c.rest = gap.bytes ++ 0x7D :: tail) : Passes (closeObject c) tail := by
  have hclose := Cursor.skipSpace_gap gap h (by decide)
  have hp : c.skipSpace.peek? = some '\x7d' := Cursor.peek?_cons hclose
  exact ⟨c.skipSpace.next, by simp only [closeObject, hp], Cursor.next_rest hclose⟩

section Members

variable {σ : Type}

/-- Behind a key, wherever a colon and a value are ahead, the reader gives the state that is told of
the value. -/
def SpelledMember (read : Cursor → Except Fault (σ × Cursor)) (put? : Form → Option σ) : Prop :=
  ∀ (beforeColon afterColon : Gap) (f : Form) {c : Cursor} {tail : List UInt8},
    c.rest = beforeColon.bytes ++ 0x3A :: (afterColon.bytes ++ (f.bytes ++ tail)) →
    EndsNumber tail → Yields (read c) (put? f) tail

theorem readMemberValue_spelled {read : Cursor → Except Fault (σ × Cursor)}
    {spell? : Form → Option σ} (hread : Spelled read spell?) (key : String) :
    SpelledMember (readMemberValue read key) spell? := by
  intro beforeColon afterColon f c tail h ht
  refine Yields.mapError ?_ _
  exact (readColon_gap beforeColon h).bind fun c₁ hr₁ =>
    hread f (skipSpace_form afterColon f hr₁) ht

/-- The states that the members of an object lead to, one after another. -/
def putMembers? (put? : String → Form → σ → Option σ) (ms : List (Option String × Form))
    (state : σ) : Option σ :=
  ms.foldlM (fun state m => m.1.bind fun key => put? key m.2 state) state

theorem putMembers?_cons (put? : String → Form → σ → Option σ) (key? : Option String) (f : Form)
    (ms : List (Option String × Form)) (state : σ) :
    putMembers? put? ((key?, f) :: ms) state =
      key?.bind fun key => (put? key f state).bind (putMembers? put? ms) := by
  cases key? with
  | none => rfl
  | some key => rfl

theorem readMembers_members {read : String → σ → Cursor → Except Fault (σ × Cursor)}
    {put? : String → Form → σ → Option σ}
    (hread : ∀ key state, SpelledMember (read key state) fun f => put? key f state)
    {tail : List UInt8} :
    ∀ (ms : Members) (fuel : Nat) (first : Bool) (state : σ) (gap : Gap) {c : Cursor},
      c.rest = gap.bytes ++ (ms.bytes first ++ 0x7D :: tail) → c.rest.length < fuel →
      Yields (readMembers read fuel first state c) (putMembers? put? ms.toList state)
        (0x7D :: tail)
  | .nil, fuel, first, state, gap, c, h, hfuel => by
    obtain ⟨fuel, rfl⟩ : ∃ n, fuel = n + 1 := ⟨fuel - 1, by omega⟩
    obtain ⟨hnext, hr⟩ := nextKey_nil first gap h
    refine ⟨c.skipSpace, ?_, hr⟩
    rw [readMembers, hnext, ok_bind]
    rfl
  | .cons before key beforeColon afterColon f after ms, fuel, first, state, gap, c, h, hfuel => by
    obtain ⟨fuel, rfl⟩ : ∃ n, fuel = n + 1 := ⟨fuel - 1, by omega⟩
    simp only [Members.bytes, stringBytes, List.append_assoc, List.cons_append,
      List.nil_append] at h
    obtain ⟨c₁, hnext, hr₁⟩ := nextKey_cons first gap before h
    rw [readMembers, hnext, ok_bind]
    simp only [↓reduceIte]
    rw [Members.toList, putMembers?_cons]
    refine (readText_content key (Cursor.next_rest hr₁)).bind fun key c₂ hr₂ => ?_
    refine (hread key state beforeColon afterColon f hr₂
      (endsNumber_gap after (endsNumber_members ms tail))).bind fun state c₃ hr₃ => ?_
    refine readMembers_members hread ms fuel false state after hr₃ ?_
    rw [h] at hfuel
    rw [hr₃]
    simp only [List.length_append, List.length_cons] at hfuel ⊢
    omega

end Members

theorem readEntry_spelled (key : String) (t : Table) :
    SpelledMember (readEntry key t) fun f =>
      f.text?.bind fun value => some (t.insert key value) := by
  intro beforeColon afterColon f c tail h ht
  exact (readMemberValue_spelled readTextValue_spelled key beforeColon afterColon f h ht).bind
    fun value c₁ hr₁ => yields_ok _ hr₁

theorem readTable_spelled : Spelled readTable Form.table? := by
  intro f c tail h _
  rw [readTable]
  split
  case h_1 hp =>
    obtain ⟨gap, ms, rfl⟩ := Form.exists_object h hp
    simp only [Form.bytes, List.cons_append, List.append_assoc, List.nil_append] at h
    exact (readMembers_members readEntry_spelled ms _ true Table.empty gap (Cursor.next_rest h)
      (Cursor.length_next_lt _)).close fun c₁ hr₁ => closeObject_gap Gap.none hr₁
  case h_2 hp =>
    cases f with
    | object gap ms => exact absurd (Form.peek?_of_mark? rfl h) hp
    | _ => exact yields_failType _ _ _

/-! ## Records as objects -/

/-- Puts the value behind a key into its slot, unless there is one already. Values behind other keys
do not matter. -/
def Fields.fill? : (fs : Fields) → String → Form → fs.Slots → Option fs.Slots
  | .nil, _, _, _ => some ()
  | .cons name _ shape rest, key, f, (slot, slots) =>
    if key = name then
      if slot.isSome then none else (shape.ofForm? f).bind fun v => some (some v, slots)
    else (rest.fill? key f slots).bind fun slots => some (slot, slots)

/-- What is taken for a field, given what is in its slot and the members with its key. -/
def Shape.slotted? (shape : Shape) (presence : Presence) :
    Option shape.Value → List (Option String × Form) → Option shape.Value
  | none, ms => presence.sole? shape.blank shape.ofForm? ms
  | some v, [] => some v
  | some _, _ :: _ => none

/-- The fields of a record among the members of an object, where some were read before: each at most
once, and none missing that is required. -/
def Fields.slotted? : (fs : Fields) → fs.Slots → List (Option String × Form) → Option fs.Value
  | .nil, _, _ => some ()
  | .cons key presence shape rest, (slot, slots), ms =>
    (shape.slotted? presence slot (ms.filter (·.1 == some key))).bind fun value =>
      (rest.slotted? slots ms).bind fun values => some (value, values)

theorem Fields.slotted?_noSlots : ∀ (fs : Fields) (ms : List (Option String × Form)),
    fs.slotted? fs.noSlots ms = fs.ofMembers? ms
  | .nil, _ => rfl
  | .cons key presence shape rest, ms => by
    rw [ofMembers?, ← slotted?_noSlots rest ms]
    rfl

theorem Fields.slotted?_nil : ∀ (fs : Fields) (slots : fs.Slots),
    fs.slotted? slots [] = (fs.finish slots).toOption
  | .nil, _ => rfl
  | .cons key presence shape rest, (slot, slots) => by
    have ih := slotted?_nil rest slots
    simp only [slotted?, finish, List.filter_nil, ih]
    cases slot with
    | some v => cases rest.finish slots <;> rfl
    | none =>
      simp only [Shape.slotted?, Presence.sole?, Presence.missing?]
      by_cases hp : presence = .required
      · simp only [if_pos hp]
        rfl
      · simp only [if_neg hp]
        cases rest.finish slots <;> rfl

theorem Fields.of_distinctKeys_cons {name : String} {presence : Presence} {shape : Shape}
    {rest : Fields} (h : (Fields.cons name presence shape rest).distinctKeys = true) :
    name ∉ rest.keys ∧ shape.distinctKeys = true ∧ rest.distinctKeys = true := by
  simpa [distinctKeys, and_assoc] using h

/-- A member with a key of no field does not matter. -/
theorem Fields.slotted?_cons_of_notMem : ∀ (fs : Fields) (slots : fs.Slots) {key : String}
    (f : Form) (ms : List (Option String × Form)), key ∉ fs.keys →
    fs.slotted? slots ((some key, f) :: ms) = fs.slotted? slots ms
  | .nil, _, _, _, _, _ => rfl
  | .cons name presence shape rest, (slot, slots), key, f, ms, h => by
    obtain ⟨hname, hrest⟩ : key ≠ name ∧ key ∉ rest.keys := by simpa [keys] using h
    rw [slotted?, slotted?, slotted?_cons_of_notMem rest slots f ms hrest,
      List.filter_cons_of_neg (by simpa using hname)]

/-- The member that is filled in first is one of those that are looked up. -/
theorem Fields.slotted?_cons : ∀ (fs : Fields), fs.distinctKeys = true → ∀ (slots : fs.Slots)
    (key : String) (f : Form) (ms : List (Option String × Form)),
    fs.slotted? slots ((some key, f) :: ms) =
      (fs.fill? key f slots).bind fun slots => fs.slotted? slots ms
  | .nil, _, _, _, _, _ => rfl
  | .cons name presence shape rest, hk, (slot, slots), key, f, ms => by
    obtain ⟨hname, -, hrest⟩ := of_distinctKeys_cons hk
    by_cases h : key = name
    · subst h
      rw [slotted?, fill?, if_pos rfl, slotted?_cons_of_notMem rest slots f ms hname,
        List.filter_cons_of_pos (by simp)]
      cases slot with
      | some v => rfl
      | none =>
        -- Alone the member is what is taken; beside another one neither is.
        have hsole (ms : List (Option String × Form)) :
            shape.slotted? presence none ((some key, f) :: ms) =
              (shape.ofForm? f).bind fun v => shape.slotted? presence (some v) ms := by
          cases ms with
          | nil => exact (Option.bind_fun_some _).symm
          | cons m ms => cases shape.ofForm? f <;> rfl
        rw [hsole]
        cases shape.ofForm? f <;> rfl
    · rw [slotted?, fill?, if_neg h, slotted?_cons rest hrest,
        List.filter_cons_of_neg (by simpa using h)]
      simp only [Option.bind_assoc]
      cases rest.fill? key f slots with
      | none => cases shape.slotted? presence slot (ms.filter (·.1 == some name)) <;> rfl
      | some slots => rfl

/-- To fill the slots one after another is to look every field up. -/
theorem Fields.putMembers?_fill? (fs : Fields) (hk : fs.distinctKeys = true) :
    ∀ (ms : List (Option String × Form)) (slots : fs.Slots),
      ((putMembers? fs.fill? ms slots).bind fun slots => (fs.finish slots).toOption) =
        if ms.all (·.1.isSome) then fs.slotted? slots ms else none
  | [], slots => (fs.slotted?_nil slots).symm
  | (none, f) :: ms, slots => rfl
  | (some key, f) :: ms, slots => by
    rw [putMembers?_cons, Option.bind_some, Option.bind_assoc, List.all_cons, Option.isSome_some,
      Bool.true_and, fs.slotted?_cons hk]
    simp only [putMembers?_fill? fs hk ms]
    split
    case isTrue => rfl
    case isFalse => cases fs.fill? key f slots <;> rfl

theorem skipMemberValue_passes (key : String) (beforeColon afterColon : Gap) (f : Form) {c : Cursor}
    {tail : List UInt8}
    (h : c.rest = beforeColon.bytes ++ 0x3A :: (afterColon.bytes ++ (f.bytes ++ tail)))
    (ht : EndsNumber tail) : Passes (skipMemberValue key c) tail := by
  obtain ⟨c₁, hcolon, hr₁⟩ := readColon_gap beforeColon h
  obtain ⟨c₂, hskip, hr₂⟩ := skipValue_form f (skipSpace_form afterColon f hr₁) ht
  refine ⟨c₂, ?_, hr₂⟩
  rw [skipMemberValue, hcolon, ok_bind, hskip]
  rfl

theorem Fields.take_spelled_nil (key : String) (slots : Fields.nil.Slots) :
    SpelledMember (Fields.nil.take key slots) fun f => Fields.nil.fill? key f slots := by
  intro beforeColon afterColon f c tail h ht
  exact (skipMemberValue_passes key beforeColon afterColon f h ht).bind fun c₁ hr₁ =>
    yields_ok _ hr₁

theorem Fields.take_spelled_cons {name : String} {presence : Presence} {shape : Shape}
    {rest : Fields} (hshape : Spelled shape.read shape.ofForm?)
    (hrest : ∀ key slots, SpelledMember (rest.take key slots) fun f => rest.fill? key f slots)
    (key : String) (slots : (Fields.cons name presence shape rest).Slots) :
    SpelledMember ((Fields.cons name presence shape rest).take key slots) fun f =>
      (Fields.cons name presence shape rest).fill? key f slots := by
  intro beforeColon afterColon f c tail h ht
  obtain ⟨slot, slots⟩ := slots
  dsimp only
  by_cases hkey : key = name
  · rw [fill?, if_pos hkey]
    simp only [take, readMember, if_pos hkey]
    cases slot with
    | some v => exact ⟨_, rfl⟩
    | none =>
      exact (readMemberValue_spelled hshape key beforeColon afterColon f h ht).bind fun v c₁ hr₁ =>
        yields_ok _ hr₁
  · rw [take_cons_ne hkey, fill?, if_neg hkey]
    exact (hrest key slots beforeColon afterColon f h ht).map fun slots => (slot, slots)

/-! ## Records as lists -/

theorem of_closeList {c c' : Cursor} (h : closeList c = .ok c') :
    c.skipSpace.rest = 0x5D :: c'.rest := by
  rw [closeList] at h
  split at h
  case h_1 hp =>
    cases h
    exact Cursor.rest_eq_cons_next hp
  case h_2 =>
    dsimp only at h
    split at h <;> cases h
  case h_3 => cases h
  case h_4 => cases h

/-- Where there is another element, the list does not close. -/
theorem closeList_cons (first : Bool) (gap before : Gap) (f : Form) {c : Cursor}
    {tail : List UInt8}
    (h : c.rest = gap.bytes ++ (comma first ++ (before.bytes ++ (f.bytes ++ tail)))) :
    ∃ fault, closeList c = .error fault := by
  refine exists_error fun c' hc' => ?_
  have hclose := of_closeList hc'
  cases first with
  | true =>
    obtain ⟨b, t, hb, -, hne⟩ := f.exists_first
    have hfirst : c.skipSpace.rest = f.bytes ++ tail := skipSpace_gaps gap before f h
    rw [hfirst, hb] at hclose
    exact hne (List.cons.inj hclose).1
  | false =>
    have hcomma := Cursor.skipSpace_gap gap h (by decide)
    rw [hcomma] at hclose
    exact absurd (List.cons.inj hclose).1 (by decide)

/-- Fields that are read up to the end of the list. -/
def Fields.readList (fs : Fields) (expected : String) (position : Nat) (c : Cursor) :
    Except Fault (fs.Value × Cursor) :=
  fs.readInOrder expected position c >>= fun r => closeList r.2 >>= fun c => .ok (r.1, c)

/-- From the position on, the fields are read from the elements ahead. -/
def Fields.SpelledInOrder (fs : Fields) : Prop :=
  ∀ (es : Elements) (expected : String) (position : Nat) (gap : Gap) {c : Cursor}
    {tail : List UInt8}, c.rest = gap.bytes ++ (es.bytes (position == 0) ++ 0x5D :: tail) →
    Yields (fs.readList expected position c) (fs.ofElements? es.toList) tail

theorem Fields.spelledInOrder_nil : Fields.nil.SpelledInOrder := by
  intro es expected position gap c tail h
  cases es with
  | nil => exact (closeList_gap gap h).bind fun c₁ hr₁ => yields_ok _ hr₁
  | cons before f after es =>
    simp only [Elements.bytes, List.append_assoc] at h
    obtain ⟨fault, hclose⟩ := closeList_cons (position == 0) gap before f h
    refine ⟨fault, ?_⟩
    rw [readList, readInOrder, ok_bind, hclose]
    rfl

/-- A value in front of those of the later fields. -/
theorem Fields.readInOrder_close {rest : Fields} {α : Type} (v : α) (expected : String)
    (position : Nat) (c : Cursor) :
    ((rest.readInOrder expected position c >>= fun r =>
      (.ok ((v, r.1), r.2) : Except Fault ((α × rest.Value) × Cursor))) >>= fun r =>
        closeList r.2 >>= fun c => .ok (r.1, c)) =
      (rest.readList expected position c).map fun r => ((v, r.1), r.2) := by
  rw [readList]
  cases rest.readInOrder expected position c with
  | error fault => rfl
  | ok r =>
    simp only [ok_bind]
    cases closeList r.2 <;> rfl

theorem Fields.spelledInOrder_cons {name : String} {presence : Presence} {shape : Shape}
    {rest : Fields} (hshape : Spelled shape.read shape.ofForm?) (hrest : rest.SpelledInOrder) :
    (Fields.cons name presence shape rest).SpelledInOrder := by
  intro es expected position gap c tail h
  cases es with
  | nil =>
    obtain ⟨hnext, hr⟩ := nextElement_nil (position == 0) gap h
    rw [readList, readInOrder, hnext, ok_bind, Elements.toList, ofElements?, Presence.missing?]
    by_cases hp : presence = .required
    · simp only [Bool.false_eq_true, ↓reduceIte, if_pos hp]
      exact ⟨_, rfl⟩
    · simp only [Bool.false_eq_true, ↓reduceIte, if_neg hp]
      refine (readInOrder_close shape.blank expected (position + 1) c.skipSpace).symm ▸ ?_
      exact (hrest .nil expected (position + 1) Gap.none hr).map fun values =>
        (shape.blank, values)
  | cons before f after es =>
    simp only [Elements.bytes, List.append_assoc] at h
    obtain ⟨c₁, hnext, hr₁⟩ := nextElement_cons (position == 0) gap before f h
    rw [readList, readInOrder, hnext, ok_bind, Elements.toList, ofElements?]
    simp only [↓reduceIte]
    rw [bind_assoc]
    refine Yields.bind ((hshape f hr₁
      (endsNumber_gap after (endsNumber_elements es tail))).mapError _) fun v c₂ hr₂ => ?_
    refine (readInOrder_close v expected (position + 1) c₂).symm ▸ ?_
    exact (hrest es expected (position + 1) after hr₂).map fun values => (v, values)

/-! ## Every shape -/

theorem Shape.spelled_record (name : String) {fields : Fields} (hk : fields.distinctKeys = true)
    (htake : ∀ key slots, SpelledMember (fields.take key slots) fun f => fields.fill? key f slots)
    (horder : fields.SpelledInOrder) :
    Spelled (Shape.record name fields).read (Shape.record name fields).ofForm? := by
  intro f c tail h _
  rw [Shape.read, Shape.ofForm?]
  dsimp only
  split
  case h_1 hp =>
    obtain ⟨gap, es, rfl⟩ := Form.exists_list h hp
    simp only [Form.bytes, List.cons_append, List.append_assoc, List.nil_append] at h
    exact horder es (expectedRecord name fields.count) 0 gap (Cursor.next_rest h)
  case h_2 hp =>
    obtain ⟨gap, ms, rfl⟩ := Form.exists_object h hp
    simp only [Form.bytes, List.cons_append, List.append_assoc, List.nil_append] at h
    have hfold := fields.putMembers?_fill? hk ms.toList fields.noSlots
    rw [fields.slotted?_noSlots] at hfold
    refine Yields.congr ?_ hfold
    refine (readMembers_members htake ms _ true fields.noSlots gap (Cursor.next_rest h)
      (Cursor.length_next_lt _)).bind fun slots c₁ hr₁ => ?_
    dsimp only
    cases fields.finish slots with
    | error key => exact ⟨_, rfl⟩
    | ok v => exact (closeObject_gap Gap.none hr₁).bind fun c₂ hr₂ => yields_ok v hr₂
  case h_3 hlist hobject =>
    cases f with
    | list gap es => exact absurd (Form.peek?_of_mark? rfl h) hlist
    | object gap ms => exact absurd (Form.peek?_of_mark? rfl h) hobject
    | _ => exact yields_failType _ _ _

mutual

/-- **Where a value is ahead, the reader gives what the value spells**, and fails where it spells
nothing. -/
theorem Shape.spelled : ∀ s : Shape, s.distinctKeys = true → Spelled s.read s.ofForm?
  | .text, _ => readTextValue_spelled
  | .word16, _ => readWord16_spelled
  | .table, _ => readTable_spelled
  | .list item, hk => Shape.spelled_list (Shape.spelled item hk)
  | .record name fields, hk =>
    Shape.spelled_record name hk (Fields.take_spelled fields hk) (Fields.spelledInOrder fields hk)

theorem Fields.take_spelled : ∀ fs : Fields, fs.distinctKeys = true →
    ∀ key slots, SpelledMember (fs.take key slots) fun f => fs.fill? key f slots
  | .nil, _ => Fields.take_spelled_nil
  | .cons _ _ shape rest, hk =>
    have h := Fields.of_distinctKeys_cons hk
    Fields.take_spelled_cons (Shape.spelled shape h.2.1) (Fields.take_spelled rest h.2.2)

theorem Fields.spelledInOrder : ∀ fs : Fields, fs.distinctKeys = true → fs.SpelledInOrder
  | .nil, _ => Fields.spelledInOrder_nil
  | .cons _ _ shape rest, hk =>
    have h := Fields.of_distinctKeys_cons hk
    Fields.spelledInOrder_cons (Shape.spelled shape h.2.1) (Fields.spelledInOrder rest h.2.2)

end

end Chassis.Json
