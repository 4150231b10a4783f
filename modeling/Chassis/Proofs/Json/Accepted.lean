import Chassis.Proofs.Json.Spelling

/-!
# What is read is a JSON text

> **A document is read if and only if it is the JSON text of a value that spells what was read**
> (`Shape.readDocument_eq_ok_iff`).

A reader that goes well has passed over a value: leaves first, then the loops by induction on their
fuel, then the shapes. What the value spells need not be followed on the way, because the reader
gives what every value spells that the bytes are a text of.
-/

set_option autoImplicit false

namespace Chassis.Json

open Text

/-- Whatever the reader gives, it has passed over a value. -/
def TakesValue {α : Type} (read : Cursor → Except Fault (α × Cursor)) : Prop :=
  ∀ {c c' : Cursor} {a : α}, read c = .ok (a, c') →
    ∃ (gap : Gap) (f : Form), c.rest = gap.bytes ++ (f.bytes ++ c'.rest)

/-- Behind a key, whatever the reader gives, it has passed over a colon and a value. -/
def TakesMember {σ : Type} (read : Cursor → Except Fault (σ × Cursor)) : Prop :=
  ∀ {c c' : Cursor} {a : σ}, read c = .ok (a, c') →
    ∃ (beforeColon afterColon : Gap) (f : Form),
      c.rest = beforeColon.bytes ++ 0x3A :: (afterColon.bytes ++ (f.bytes ++ c'.rest))

/-! ## Values without parts -/

theorem readTextValue_takesValue : TakesValue readTextValue := by
  intro c c' s h
  obtain ⟨gap, hgap⟩ := c.exists_gap
  rw [readTextValue] at h
  split at h
  case h_1 hp =>
    obtain ⟨ps, hr⟩ := exists_content_of_readText h
    refine ⟨gap, .text ps, ?_⟩
    rw [hgap, Cursor.rest_eq_cons_next hp, hr]
    simp [Form.bytes, stringBytes]
  case h_2 => exact absurd h (failType_ne_ok _ _ _)

theorem readWord16_takesValue : TakesValue readWord16 := by
  intro c c' v h
  obtain ⟨gap, hgap⟩ := c.exists_gap
  obtain ⟨n, hr⟩ := (of_readWord16 h).1
  exact ⟨gap, .number n, by rw [hgap, hr, Form.bytes]⟩

/-! ## Lists -/

/-- The next element is ahead, or the end of the list. -/
theorem of_nextElement {first more : Bool} {c c' : Cursor}
    (h : nextElement first c = .ok (more, c')) :
    ∃ gap : Gap, if more then
        ∃ before : Gap, c.rest = gap.bytes ++ (comma first ++ (before.bytes ++ c'.rest))
      else c.rest = gap.bytes ++ c'.rest ∧ ∃ t, c'.rest = 0x5D :: t := by
  obtain ⟨gap, hgap⟩ := c.exists_gap
  refine ⟨gap, ?_⟩
  rw [nextElement] at h
  split at h
  case h_1 => cases h
  case h_2 hp =>
    cases h
    exact ⟨hgap, Cursor.exists_rest_of_peek? hp⟩
  case h_3 b hp =>
    split at h
    case isTrue hfirst =>
      cases h
      exact ⟨Gap.none, by rw [hfirst]; exact hgap⟩
    case isFalse hfirst =>
      rw [Bool.not_eq_true] at hfirst
      split at h
      case isFalse => cases h
      case isTrue hcomma =>
        obtain ⟨t, ht⟩ := Cursor.exists_rest_of_peek? hp
        obtain ⟨before, hbefore⟩ := c.skipSpace.next.exists_gap
        dsimp only at h
        split at h
        case h_1 => cases h
        case h_3 => cases h
        case h_2 =>
          cases h
          refine ⟨before, ?_⟩
          rw [hgap, ht, hfirst, hcomma, ← hbefore, Cursor.next_rest ht]
          rfl

theorem exists_elements_of_readElements {α : Type} {read : Cursor → Except Fault (α × Cursor)}
    (hread : TakesValue read) : ∀ (fuel : Nat) {position : Nat} {c c' : Cursor} {as : List α},
      readElements read fuel position c = .ok (as, c') →
      ∃ (gap : Gap) (es : Elements) (t : List UInt8), c'.rest = 0x5D :: t ∧
        c.rest = gap.bytes ++ (es.bytes (position == 0) ++ c'.rest) := by
  intro fuel
  induction fuel with
  | zero => exact nofun
  | succ fuel ih =>
    intro position c c' as h
    rw [readElements] at h
    obtain ⟨⟨more, c₁⟩, hnext, h⟩ := bind_eq_ok.1 h
    obtain ⟨gap, hmore⟩ := of_nextElement hnext
    cases more with
    | false =>
      cases h
      obtain ⟨hr, t, ht⟩ := hmore
      exact ⟨gap, .nil, t, ht, hr⟩
    | true =>
      obtain ⟨before, hr⟩ := hmore
      obtain ⟨⟨a, c₂⟩, hvalue, h⟩ := bind_eq_ok.1 h
      obtain ⟨⟨as, c₃⟩, hrest, h⟩ := bind_eq_ok.1 h
      cases h
      obtain ⟨space, f, hf⟩ := hread (mapError_eq_ok.1 hvalue)
      obtain ⟨after, es, t, ht, hes⟩ := ih hrest
      refine ⟨gap, .cons (before.append space) f after es, t, ht, ?_⟩
      rw [hr, hf, hes]
      simp [Elements.bytes, Gap.append]

/-- Brackets with something inside are a value, and it starts where the opening bracket does. -/
theorem exists_form_of_frame (frame : Frame) {c : Cursor} {t : List UInt8}
    (hopen : c.skipSpace.rest = frame.openByte :: t) {space : Gap} {inside tail : List UInt8}
    (hin : frame.Inside true inside)
    (h : c.skipSpace.next.rest = space.bytes ++ (inside ++ frame.closeByte :: tail)) :
    ∃ (gap : Gap) (f : Form), c.rest = gap.bytes ++ (f.bytes ++ tail) := by
  obtain ⟨gap, hgap⟩ := c.exists_gap
  obtain ⟨f, hf⟩ := frame.exists_form space hin tail
  rw [Cursor.next_rest hopen] at h
  exact ⟨gap, f, by rw [hgap, hopen, h, hf]⟩

theorem Shape.takesValue_list {item : Shape} (hitem : TakesValue item.read) :
    TakesValue (Shape.list item).read := by
  intro c c' items h
  rw [Shape.read] at h
  dsimp only at h
  split at h
  case h_1 hp =>
    obtain ⟨t, ht⟩ := Cursor.exists_rest_of_peek? hp
    obtain ⟨⟨as, c₁⟩, helements, h⟩ := bind_eq_ok.1 h
    obtain ⟨c₂, hclose, h⟩ := bind_eq_ok.1 h
    cases h
    obtain ⟨space, es, t', ht', hr⟩ := exists_elements_of_readElements hitem _ helements
    rw [closeList_bracket ht'] at hclose
    cases hclose
    rw [ht', ← Cursor.next_rest ht'] at hr
    exact exists_form_of_frame .list ht ⟨es, rfl⟩ hr
  case h_2 => exact absurd h (failType_ne_ok _ _ _)

/-! ## Objects -/

/-- The key of the next member is ahead, or the end of the object. -/
theorem of_nextKey {first more : Bool} {c c' : Cursor} (h : nextKey first c = .ok (more, c')) :
    ∃ gap : Gap, if more then
        ∃ (before : Gap) (t : List UInt8), c'.rest = 0x22 :: t ∧
          c.rest = gap.bytes ++ (comma first ++ (before.bytes ++ c'.rest))
      else c.rest = gap.bytes ++ c'.rest ∧ ∃ t, c'.rest = 0x7D :: t := by
  obtain ⟨gap, hgap⟩ := c.exists_gap
  refine ⟨gap, ?_⟩
  rw [nextKey] at h
  split at h
  case h_1 => cases h
  case h_2 hp =>
    cases h
    exact ⟨hgap, Cursor.exists_rest_of_peek? hp⟩
  case h_3 b hp =>
    split at h
    case isTrue hfirst =>
      split at h
      case isFalse => cases h
      case isTrue hquote =>
        obtain ⟨t, ht⟩ := Cursor.exists_rest_of_peek? hp
        cases h
        rw [hquote] at ht
        exact ⟨Gap.none, t, ht, by rw [hfirst]; exact hgap⟩
    case isFalse hfirst =>
      rw [Bool.not_eq_true] at hfirst
      split at h
      case isFalse => cases h
      case isTrue hcomma =>
        obtain ⟨t, ht⟩ := Cursor.exists_rest_of_peek? hp
        obtain ⟨before, hbefore⟩ := c.skipSpace.next.exists_gap
        dsimp only at h
        split at h
        case h_2 => cases h
        case h_3 => cases h
        case h_4 => cases h
        case h_1 hp₁ =>
          cases h
          obtain ⟨t₁, ht₁⟩ := Cursor.exists_rest_of_peek? hp₁
          refine ⟨before, t₁, ht₁, ?_⟩
          rw [hgap, ht, hfirst, hcomma, ← hbefore, Cursor.next_rest ht]
          rfl

theorem exists_members_of_readMembers {σ : Type}
    {read : String → σ → Cursor → Except Fault (σ × Cursor)}
    (hread : ∀ key state, TakesMember (read key state)) : ∀ (fuel : Nat) {first : Bool}
      {state state' : σ} {c c' : Cursor},
      readMembers read fuel first state c = .ok (state', c') →
      ∃ (gap : Gap) (ms : Members) (t : List UInt8), c'.rest = 0x7D :: t ∧
        c.rest = gap.bytes ++ (ms.bytes first ++ c'.rest) := by
  intro fuel
  induction fuel with
  | zero => exact nofun
  | succ fuel ih =>
    intro first state state' c c' h
    rw [readMembers] at h
    obtain ⟨⟨more, c₁⟩, hnext, h⟩ := bind_eq_ok.1 h
    obtain ⟨gap, hmore⟩ := of_nextKey hnext
    cases more with
    | false =>
      cases h
      obtain ⟨hr, t, ht⟩ := hmore
      exact ⟨gap, .nil, t, ht, hr⟩
    | true =>
      obtain ⟨before, t₁, ht₁, hr⟩ := hmore
      obtain ⟨⟨key, c₂⟩, hkey, h⟩ := bind_eq_ok.1 h
      obtain ⟨⟨state₁, c₃⟩, hvalue, h⟩ := bind_eq_ok.1 h
      obtain ⟨ps, hps⟩ := exists_content_of_readText hkey
      obtain ⟨beforeColon, afterColon, f, hf⟩ := hread key state hvalue
      obtain ⟨after, ms, t, ht, hms⟩ := ih h
      refine ⟨gap, .cons before ps beforeColon afterColon f after ms, t, ht, ?_⟩
      rw [Cursor.next_rest ht₁] at hps
      rw [hr, ht₁, hps, hf, hms]
      simp [Members.bytes, stringBytes]

theorem readMemberValue_takesMember {α : Type} {read : Cursor → Except Fault (α × Cursor)}
    (hread : TakesValue read) (key : String) : TakesMember (readMemberValue read key) := by
  intro c c' a h
  obtain ⟨c₁, hcolon, h⟩ := bind_eq_ok.1 (mapError_eq_ok.1 h)
  obtain ⟨beforeColon, hr⟩ := of_readColon hcolon
  obtain ⟨afterColon, f, hf⟩ := hread h
  exact ⟨beforeColon, afterColon, f, by rw [hr, hf]⟩

theorem readEntry_takesMember (key : String) (t : Table) : TakesMember (readEntry key t) := by
  intro c c' t' h
  obtain ⟨⟨value, c₁⟩, hvalue, h⟩ := bind_eq_ok.1 h
  cases h
  exact readMemberValue_takesMember readTextValue_takesValue key hvalue

theorem readTable_takesValue : TakesValue readTable := by
  intro c c' table h
  rw [readTable] at h
  split at h
  case h_1 hp =>
    obtain ⟨t, ht⟩ := Cursor.exists_rest_of_peek? hp
    obtain ⟨⟨table, c₁⟩, hmembers, h⟩ := bind_eq_ok.1 h
    obtain ⟨c₂, hclose, h⟩ := bind_eq_ok.1 h
    cases h
    obtain ⟨space, ms, t', ht', hr⟩ :=
      exists_members_of_readMembers readEntry_takesMember _ hmembers
    rw [closeObject_brace ht'] at hclose
    cases hclose
    rw [ht', ← Cursor.next_rest ht'] at hr
    exact exists_form_of_frame .object ht ⟨ms, rfl⟩ hr
  case h_2 => exact absurd h (failType_ne_ok _ _ _)

/-! ## Records -/

theorem Fields.take_takesMember_nil (key : String) (slots : Fields.nil.Slots) :
    TakesMember (Fields.nil.take key slots) := by
  intro c c' slots' h
  obtain ⟨c₁, hskip, h⟩ := bind_eq_ok.1 h
  cases h
  obtain ⟨c₂, hcolon, hvalue⟩ := bind_eq_ok.1 (mapError_eq_ok.1 hskip)
  obtain ⟨beforeColon, hr⟩ := of_readColon hcolon
  obtain ⟨afterColon, f, hf⟩ := exists_form_of_skipValue hvalue
  exact ⟨beforeColon, afterColon, f, by rw [hr, hf]⟩

theorem Fields.take_takesMember_cons {name : String} {presence : Presence} {shape : Shape}
    {rest : Fields} (hshape : TakesValue shape.read)
    (hrest : ∀ key slots, TakesMember (rest.take key slots)) (key : String)
    (slots : (Fields.cons name presence shape rest).Slots) :
    TakesMember ((Fields.cons name presence shape rest).take key slots) := by
  intro c c' slots' h
  obtain ⟨slot, slots⟩ := slots
  by_cases hkey : key = name
  · simp only [take, readMember, if_pos hkey] at h
    cases slot with
    | some v => cases h
    | none =>
      obtain ⟨⟨v, c₁⟩, hvalue, h⟩ := bind_eq_ok.1 h
      cases h
      exact readMemberValue_takesMember hshape key hvalue
  · rw [take_cons_ne hkey] at h
    cases hread : rest.take key slots c with
    | error fault => rw [hread] at h; cases h
    | ok r =>
      rw [hread] at h
      cases h
      exact hrest key slots hread

/-- Up to the end of the list, whatever gives the fields in order has passed over elements. -/
def Fields.TakesElements (fs : Fields) : Prop :=
  ∀ {expected : String} {position : Nat} {c c' : Cursor} {v : fs.Value},
    fs.readList expected position c = .ok (v, c') →
    ∃ (gap : Gap) (es : Elements),
      c.rest = gap.bytes ++ (es.bytes (position == 0) ++ 0x5D :: c'.rest)

theorem Fields.takesElements_nil : Fields.nil.TakesElements := by
  intro expected position c c' v h
  rw [readList, readInOrder, ok_bind] at h
  obtain ⟨c₁, hclose, h⟩ := bind_eq_ok.1 h
  cases h
  obtain ⟨gap, hgap⟩ := c.exists_gap
  exact ⟨gap, .nil, by rw [hgap, of_closeList hclose]; rfl⟩

/-- Behind a value, whatever gives the later fields has passed over the later elements. -/
theorem Fields.TakesElements.of_close {rest : Fields} (hrest : rest.TakesElements) {α : Type}
    {v : α} {expected : String} {position : Nat} {c c' : Cursor} {vs : α × rest.Value}
    (h : ((rest.readInOrder expected (position + 1) c >>= fun r =>
      (.ok ((v, r.1), r.2) : Except Fault ((α × rest.Value) × Cursor))) >>= fun r =>
        closeList r.2 >>= fun c => .ok (r.1, c)) = .ok (vs, c')) :
    ∃ (gap : Gap) (es : Elements), c.rest = gap.bytes ++ (es.bytes false ++ 0x5D :: c'.rest) := by
  rw [readInOrder_close] at h
  cases hread : rest.readList expected (position + 1) c with
  | error fault => rw [hread] at h; cases h
  | ok r =>
    rw [hread] at h
    cases h
    exact hrest hread

/-- At the end of a list there are no more elements. -/
theorem eq_of_bracket {after : Gap} {es : Elements} {t tail : List UInt8}
    (h : 0x5D :: t = after.bytes ++ (es.bytes false ++ 0x5D :: tail)) : t = tail := by
  cases hgap : after.bytes with
  | cons b bs =>
    rw [hgap] at h
    have hb := after.blank b (by rw [hgap]; exact List.mem_cons_self)
    rw [← (List.cons.inj h).1] at hb
    exact absurd hb (by decide)
  | nil =>
    rw [hgap, List.nil_append] at h
    cases es with
    | nil => exact (List.cons.inj h).2
    | cons before f after es => exact absurd (List.cons.inj h).1 (by decide)

theorem Fields.takesElements_cons {name : String} {presence : Presence} {shape : Shape}
    {rest : Fields} (hshape : TakesValue shape.read) (hrest : rest.TakesElements) :
    (Fields.cons name presence shape rest).TakesElements := by
  intro expected position c c' v h
  rw [readList, readInOrder, bind_assoc] at h
  obtain ⟨⟨more, c₁⟩, hnext, h⟩ := bind_eq_ok.1 h
  obtain ⟨gap, hmore⟩ := of_nextElement hnext
  cases more with
  | true =>
    obtain ⟨before, hr⟩ := hmore
    simp only [↓reduceIte] at h
    rw [bind_assoc] at h
    obtain ⟨⟨w, c₂⟩, hvalue, h⟩ := bind_eq_ok.1 h
    obtain ⟨space, f, hf⟩ := hshape (mapError_eq_ok.1 hvalue)
    obtain ⟨after, es, hes⟩ := hrest.of_close h
    refine ⟨gap, .cons (before.append space) f after es, ?_⟩
    rw [hr, hf, hes]
    simp [Elements.bytes, Gap.append]
  | false =>
    obtain ⟨hr, t, ht⟩ := hmore
    by_cases hp : presence = .required
    · simp only [Bool.false_eq_true, ↓reduceIte, if_pos hp] at h
      cases h
    · simp only [Bool.false_eq_true, ↓reduceIte, if_neg hp] at h
      obtain ⟨after, es, hes⟩ := hrest.of_close h
      rw [ht] at hr
      exact ⟨gap, .nil, by rw [hr, eq_of_bracket (ht.symm.trans hes)]; rfl⟩

theorem Shape.takesValue_record (name : String) {fields : Fields}
    (htake : ∀ key slots, TakesMember (fields.take key slots)) (horder : fields.TakesElements) :
    TakesValue (Shape.record name fields).read := by
  intro c c' v h
  rw [Shape.read] at h
  dsimp only at h
  split at h
  case h_1 hp =>
    obtain ⟨t, ht⟩ := Cursor.exists_rest_of_peek? hp
    obtain ⟨space, es, hr⟩ := horder h
    exact exists_form_of_frame .list ht ⟨es, rfl⟩ hr
  case h_2 hp =>
    obtain ⟨t, ht⟩ := Cursor.exists_rest_of_peek? hp
    obtain ⟨⟨slots, c₁⟩, hmembers, h⟩ := bind_eq_ok.1 h
    obtain ⟨space, ms, t', ht', hr⟩ := exists_members_of_readMembers htake _ hmembers
    dsimp only at h
    split at h
    case h_2 => cases h
    case h_1 =>
      rw [closeObject_brace ht'] at h
      cases h
      rw [ht', ← Cursor.next_rest ht'] at hr
      exact exists_form_of_frame .object ht ⟨ms, rfl⟩ hr
  case h_3 => exact absurd h (failType_ne_ok _ _ _)

mutual

/-- **Whatever is read of a shape, it was a value that was passed over.** -/
theorem Shape.takesValue : ∀ s : Shape, TakesValue s.read
  | .text => readTextValue_takesValue
  | .word16 => readWord16_takesValue
  | .table => readTable_takesValue
  | .list item => Shape.takesValue_list (Shape.takesValue item)
  | .record name fields =>
    Shape.takesValue_record name (Fields.take_takesMember fields) (Fields.takesElements fields)

theorem Fields.take_takesMember : ∀ (fs : Fields) (key : String) (slots : fs.Slots),
    TakesMember (fs.take key slots)
  | .nil => Fields.take_takesMember_nil
  | .cons _ _ shape rest =>
    Fields.take_takesMember_cons (Shape.takesValue shape) (Fields.take_takesMember rest)

theorem Fields.takesElements : ∀ fs : Fields, fs.TakesElements
  | .nil => Fields.takesElements_nil
  | .cons _ _ shape rest =>
    Fields.takesElements_cons (Shape.takesValue shape) (Fields.takesElements rest)

end

/-! ## Whole texts -/

theorem of_readEnd {c : Cursor} (h : readEnd c = .ok ()) : ∃ gap : Gap, c.rest = gap.bytes := by
  obtain ⟨gap, hgap⟩ := c.exists_gap
  rw [readEnd] at h
  split at h
  case isTrue hend => exact ⟨gap, by rw [hgap, List.isEmpty_iff.1 hend, List.append_nil]⟩
  case isFalse => cases h

/-- What a document is read as is what its value spells. -/
theorem Shape.readDocument_of_isTextOf (s : Shape) (hk : s.distinctKeys = true) {f : Form}
    {bytes : List UInt8} (hf : f.IsTextOf bytes) (v : s.Value) :
    s.readDocument bytes = .ok v ↔ s.ofForm? f = some v := by
  obtain ⟨before, after, rfl⟩ := hf
  have hstart : (Cursor.ofBytes (before.bytes ++ (f.bytes ++ after.bytes))).skipSpace.rest =
      f.bytes ++ after.bytes := skipSpace_form before f rfl
  have hends : EndsNumber after.bytes := by
    have := endsNumber_gap after endsNumber_nil
    rwa [List.append_nil] at this
  have hread := s.spelled hk f hstart hends
  rw [readDocument]
  cases hv : s.ofForm? f with
  | none =>
    rw [hv] at hread
    obtain ⟨fault, hread⟩ := hread
    rw [hread]
    exact iff_of_false (fun h => by cases h) (fun h => by cases h)
  | some w =>
    rw [hv] at hread
    obtain ⟨c, hread, hr⟩ := hread
    have hend : readEnd c = .ok () := by
      rw [readEnd]
      simp only [Cursor.skipSpace_gap_nil after hr]
      rfl
    rw [hread, ok_bind]
    simp only [hend, ok_bind, Except.ok.injEq, Option.some.injEq]

/-- **A document is read if and only if it is the JSON text of a value that spells what was
read.** -/
theorem Shape.readDocument_eq_ok_iff (s : Shape) (hk : s.distinctKeys = true)
    (bytes : List UInt8) (v : s.Value) :
    s.readDocument bytes = .ok v ↔ ∃ f : Form, f.IsTextOf bytes ∧ s.ofForm? f = some v := by
  constructor
  · intro h
    obtain ⟨⟨w, c⟩, hread, hend⟩ := bind_eq_ok.1 h
    obtain ⟨⟨⟩, hend, hv⟩ := bind_eq_ok.1 hend
    obtain ⟨before, f, hr⟩ := s.takesValue hread
    obtain ⟨after, hafter⟩ := of_readEnd hend
    have hf : f.IsTextOf bytes := ⟨before, after, by rw [← hafter]; exact hr⟩
    exact ⟨f, hf, (s.readDocument_of_isTextOf hk hf v).1 h⟩
  · rintro ⟨f, hf, hv⟩
    exact (s.readDocument_of_isTextOf hk hf v).2 hv

end Chassis.Json
