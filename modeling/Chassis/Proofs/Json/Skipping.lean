import Chassis.Proofs.Json.Numerals
import Chassis.Proofs.Json.RoundTrip
import Chassis.Proofs.Json.Strings

/-!
# What is passed over is a value

> **Skipping passes over any value of the grammar, and over nothing else** (`skipValue_form`,
> `exists_form_of_skipValue`).

The skipping reader is a machine: it has no value to build, so it keeps the open brackets in a list
and goes on until that list is empty. What it does once a value is complete depends on the open
brackets alone (`resume`). So both directions are told by one sentence: to skip inside open brackets
is to pass over one value and to `resume` inside the same brackets.
-/

set_option autoImplicit false

namespace Chassis.Json

open Text

/-! ## In front of values -/

def Gap.append (a b : Gap) : Gap :=
  ⟨a.bytes ++ b.bytes, fun x hx => (List.mem_append.1 hx).elim (a.blank x) (b.blank x)⟩

/-- A value starts with a byte that is neither white space nor a closing bracket nor a comma. -/
theorem Form.exists_first (f : Form) :
    ∃ b t, f.bytes = b :: t ∧ Cursor.isSpace (Char.ofNat b.toNat) = false ∧ b ≠ 0x5D := by
  cases f with
  | null => exact ⟨_, _, rfl, by decide, by decide⟩
  | boolean b => cases b <;> exact ⟨_, _, rfl, by decide, by decide⟩
  | text ps => exact ⟨_, _, rfl, by decide, by decide⟩
  | list gap items => exact ⟨_, _, rfl, by decide, by decide⟩
  | object gap members => exact ⟨_, _, rfl, by decide, by decide⟩
  | number n =>
    rw [Form.bytes, Numeral.bytes]
    cases n.negative with
    | true => exact ⟨_, _, rfl, by decide, by decide⟩
    | false =>
      cases hw : n.whole.bytes with
      | nil => exact absurd hw n.whole.ne_nil
      | cons b t =>
        have hb : (Char.ofNat b.toNat).isDigit = true :=
          n.whole.digit b (by rw [hw]; exact List.mem_cons_self)
        refine ⟨b, t ++ (Numeral.fractionBytes n.fraction ++ Numeral.exponentBytes n.exponent),
          ?_, isSpace_of_isDigit hb, ?_⟩
        · rw [if_neg Bool.false_ne_true, Numeral.magnitude, hw]
          rfl
        · rintro rfl
          exact absurd hb (by decide)

theorem skipSpace_form (gap : Gap) (f : Form) {c : Cursor} {tail : List UInt8}
    (h : c.rest = gap.bytes ++ (f.bytes ++ tail)) : c.skipSpace.rest = f.bytes ++ tail := by
  obtain ⟨b, t, hf, hb, -⟩ := f.exists_first
  rw [hf] at h ⊢
  exact Cursor.skipSpace_gap gap h hb

theorem skipSpace_gaps (gap before : Gap) (f : Form) {c : Cursor} {tail : List UInt8}
    (h : c.rest = gap.bytes ++ (before.bytes ++ (f.bytes ++ tail))) :
    c.skipSpace.rest = f.bytes ++ tail := by
  refine skipSpace_form (gap.append before) f ?_
  rw [h, Gap.append, List.append_assoc]

/-- White space does not go on with a number. -/
theorem endsNumber_gap (gap : Gap) {tail : List UInt8} (ht : EndsNumber tail) :
    EndsNumber (gap.bytes ++ tail) := by
  cases hg : gap.bytes with
  | nil => exact ht
  | cons b t =>
    have hb := gap.blank b (by rw [hg]; exact List.mem_cons_self)
    simp only [Cursor.isSpace, Bool.or_eq_true, beq_iff_eq] at hb
    rcases hb with ((hb | hb) | hb) | hb
    all_goals
      rw [List.cons_append]
      exact endsNumber_cons (by rw [hb]; decide) (by rw [hb]; decide) (by rw [hb]; decide) <| by
        rw [hb]; decide

theorem endsNumber_elements (es : Elements) (tail : List UInt8) :
    EndsNumber (es.bytes false ++ 0x5D :: tail) := by
  cases es with
  | nil => exact endsNumber_bracket tail
  | cons before value after rest => exact endsNumber_comma _

theorem endsNumber_members (ms : Members) (tail : List UInt8) :
    EndsNumber (ms.bytes false ++ 0x7D :: tail) := by
  cases ms with
  | nil => exact endsNumber_brace tail
  | cons before key beforeColon afterColon value after rest => exact endsNumber_comma _

theorem length_skipSpace_le (c : Cursor) : c.skipSpace.rest.length ≤ c.rest.length := by
  obtain ⟨gap, hgap⟩ := c.exists_gap
  rw [hgap, List.length_append]
  omega

/-! ## The machine -/

/-- What the machine does once it stands where a value starts, or at the end. -/
def proceed (fuel : Nat) (r : Except Fault (List Frame × Cursor)) : Except Fault Cursor := do
  let (frames, c) ← r
  match frames with
  | [] => .ok c
  | .list :: _ => skipLoop fuel frames c
  | .object :: _ => skipLoop fuel frames (← skipKey c)

/-- What the machine does inside open brackets once a value is complete. -/
def resume (fuel : Nat) (frames : List Frame) (c : Cursor) : Except Fault Cursor :=
  proceed fuel (closeFrames frames true c)

theorem skipLoop_succ (fuel : Nat) (frames : List Frame) (c : Cursor) :
    skipLoop (fuel + 1) frames c = skipStart c >>= fun r =>
      proceed fuel (closeFrames (r.1.toList ++ frames) r.1.isNone r.2) := rfl

theorem resume_nil (fuel : Nat) (c : Cursor) : resume fuel [] c = .ok c := rfl

def Frame.openByte : Frame → UInt8
  | list => 0x5B
  | object => 0x7B

def Frame.closeByte : Frame → UInt8
  | list => 0x5D
  | object => 0x7D

/-- Closing a bracket completes a value. -/
theorem proceed_close (frame : Frame) (frames : List Frame) (afterValue : Bool) (fuel : Nat)
    {c : Cursor} {tail : List UInt8} (h : c.skipSpace.rest = frame.closeByte :: tail) :
    proceed fuel (closeFrames (frame :: frames) afterValue c) =
      resume fuel frames c.skipSpace.next := by
  have hp : c.skipSpace.peek? = some frame.close := by
    rw [Cursor.peek?_cons h]
    cases frame <;> rfl
  have hcomma : ¬ (frame.close = ',' ∧ afterValue = true) := by
    cases frame <;> simp [Frame.close]
  rw [resume, closeFrames]
  simp only [hp, if_neg hcomma, ↓reduceIte]

/-- A comma leads to the next part. -/
theorem resume_comma (frame : Frame) (frames : List Frame) (fuel : Nat) {c : Cursor}
    {tail : List UInt8} (h : c.skipSpace.rest = 0x2C :: tail) :
    resume fuel (frame :: frames) c = proceed fuel (.ok (frame :: frames, c.skipSpace.next)) := by
  have hp : c.skipSpace.peek? = some ',' := Cursor.peek?_cons h
  rw [resume, closeFrames]
  simp only [hp, and_self, ↓reduceIte]

/-- Without a value yet, any byte but the closing bracket leads to the first part. -/
theorem proceed_open (frame : Frame) (frames : List Frame) (fuel : Nat) {c : Cursor} {b : UInt8}
    {tail : List UInt8} (h : c.skipSpace.rest = b :: tail) (hb : b ≠ frame.closeByte) :
    proceed fuel (closeFrames (frame :: frames) false c) =
      proceed fuel (.ok (frame :: frames, c.skipSpace)) := by
  have hclose : ¬ Char.ofNat b.toNat = frame.close := by
    intro he
    refine hb (eq_of_ofNat_toNat he |>.trans ?_)
    cases frame <;> rfl
  rw [closeFrames]
  simp only [Cursor.peek?_cons h, Bool.false_eq_true, and_false, if_neg hclose, ↓reduceIte]

/-! ## Every value is passed over -/

/-- The machine comes behind one value, with the bytes of `tail` ahead and fuel for them. -/
def Completes (r : Except Fault Cursor) (frames : List Frame) (tail : List UInt8) : Prop :=
  ∃ fuel c, r = resume fuel frames c ∧ c.rest = tail ∧ tail.length < fuel

/-- Inside any brackets, the value is passed over. -/
def Form.Skipped (f : Form) : Prop :=
  ∀ (frames : List Frame) (fuel : Nat) {c : Cursor} {tail : List UInt8},
    c.skipSpace.rest = f.bytes ++ tail → EndsNumber tail → c.rest.length < fuel →
    Completes (skipLoop fuel frames c) frames tail

/-- Behind a value inside the brackets, the bytes are passed over up to the closing bracket, and
with it the value that it completes. -/
def Frame.Skipped (frame : Frame) (more : List UInt8) : Prop :=
  ∀ (frames : List Frame) (fuel : Nat) (gap : Gap) {c : Cursor} {tail : List UInt8},
    c.rest = gap.bytes ++ (more ++ frame.closeByte :: tail) → c.rest.length < fuel →
    Completes (resume fuel (frame :: frames) c) frames tail

theorem skipLoop_scalar {f : Form} {frames : List Frame} {fuel : Nat} {c : Cursor}
    {tail : List UInt8} (h : c.skipSpace.rest = f.bytes ++ tail) (hfuel : c.rest.length < fuel)
    (hstart : ∃ c', skipStart c = .ok (none, c') ∧ c'.rest = tail) :
    Completes (skipLoop fuel frames c) frames tail := by
  obtain ⟨c', hc', hr'⟩ := hstart
  obtain ⟨fuel, rfl⟩ : ∃ n, fuel = n + 1 := ⟨fuel - 1, by omega⟩
  refine ⟨fuel, c', ?_, hr', ?_⟩
  · rw [skipLoop_succ, hc', ok_bind]
    rfl
  · obtain ⟨b, t, hf, -, -⟩ := f.exists_first
    have hlen := length_skipSpace_le c
    rw [h, hf, List.cons_append, List.length_cons, List.length_append] at hlen
    omega

/-- A step that passes over a value without parts is a start without an open bracket. -/
theorem exists_scalar {r : Except Fault Cursor} {tail : List UInt8} (h : Passes r tail) :
    ∃ c', r.map (fun c => ((none : Option Frame), c)) = .ok (none, c') ∧ c'.rest = tail := by
  obtain ⟨c', rfl, hr⟩ := h
  exact ⟨c', rfl, hr⟩

theorem skipStart_digit {c : Cursor} (h : c.skipSpace.atDigit = true) :
    skipStart c = (skipNumber c.skipSpace).map fun c => (none, c) := by
  rw [Cursor.atDigit] at h
  rw [skipStart]
  dsimp only
  split
  case h_1 hp => rw [hp] at h; cases h
  case h_9 hp =>
    rw [hp, Option.any_some] at h
    rw [h, if_pos rfl]
  all_goals
    rename_i hp
    rw [hp] at h
    cases h

theorem skipStart_number (n : Numeral) {c : Cursor} {tail : List UInt8}
    (h : c.skipSpace.rest = n.bytes ++ tail) (ht : EndsNumber tail) :
    ∃ c', skipStart c = .ok (none, c') ∧ c'.rest = tail := by
  rw [Numeral.bytes] at h
  split at h
  case isTrue =>
    have hp : c.skipSpace.peek? = some '-' := Cursor.peek?_cons h
    simp only [skipStart, hp]
    exact exists_scalar (skipNumber_numeral n (Cursor.next_rest h) ht)
  case isFalse =>
    have hdigit : c.skipSpace.atDigit = true := by
      rw [Numeral.magnitude, List.append_assoc] at h
      exact Cursor.atDigit_digits n.whole h
    rw [skipStart_digit hdigit]
    exact exists_scalar (skipNumber_numeral n h ht)

theorem skipStart_open (frame : Frame) {c : Cursor} {tail : List UInt8}
    (h : c.skipSpace.rest = frame.openByte :: tail) :
    skipStart c = .ok (some frame, c.skipSpace.next) := by
  have hp : c.skipSpace.peek? = some (Char.ofNat frame.openByte.toNat) := Cursor.peek?_cons h
  cases frame with
  | list =>
    have hp : c.skipSpace.peek? = some '[' := hp
    simp only [skipStart, hp]
  | object =>
    have hp : c.skipSpace.peek? = some '\x7b' := hp
    simp only [skipStart, hp]

theorem skipKey_key (before : Gap) (key : List Piece) (beforeColon : Gap) {c : Cursor}
    {tail : List UInt8}
    (h : c.rest = before.bytes ++ (stringBytes key ++ (beforeColon.bytes ++ 0x3A :: tail))) :
    Passes (skipKey c) tail := by
  have hquote : c.skipSpace.rest =
      0x22 :: (contentBytes key ++ 0x22 :: (beforeColon.bytes ++ 0x3A :: tail)) := by
    rw [stringBytes, List.cons_append, List.append_assoc] at h
    exact Cursor.skipSpace_gap before h (by decide)
  obtain ⟨c₁, hkey, hr₁⟩ := skipText_content key (Cursor.next_rest hquote)
  have hcolon : c₁.skipSpace.rest = 0x3A :: tail :=
    Cursor.skipSpace_gap beforeColon hr₁ (by decide)
  have hp : c.skipSpace.peek? = some '"' := Cursor.peek?_cons hquote
  have hp₁ : c₁.skipSpace.peek? = some ':' := Cursor.peek?_cons hcolon
  refine ⟨c₁.skipSpace.next, ?_, Cursor.next_rest hcolon⟩
  simp only [skipKey, hp, hkey, ok_bind, readColon, hp₁]

theorem proceed_list (frames : List Frame) (fuel : Nat) (c : Cursor) :
    proceed fuel (.ok (.list :: frames, c)) = skipLoop fuel (.list :: frames) c := rfl

theorem proceed_object (frames : List Frame) (fuel : Nat) (c : Cursor) :
    proceed fuel (.ok (.object :: frames, c)) =
      skipKey c >>= skipLoop fuel (.object :: frames) := rfl

/-- One value and what follows it inside the brackets. -/
theorem Form.Skipped.part {f : Form} (hf : f.Skipped) {frame : Frame} {more : List UInt8}
    (hmore : frame.Skipped more) (frames : List Frame) (fuel : Nat) (before after : Gap)
    {c : Cursor} {tail : List UInt8}
    (h : c.rest = before.bytes ++ (f.bytes ++ (after.bytes ++ (more ++ frame.closeByte :: tail))))
    (hends : EndsNumber (more ++ frame.closeByte :: tail)) (hfuel : c.rest.length < fuel) :
    Completes (skipLoop fuel (frame :: frames) c) frames tail := by
  obtain ⟨m, c₁, hskip, hr₁, hm⟩ := hf (frame :: frames) fuel (skipSpace_form before f h)
    (endsNumber_gap after hends) hfuel
  rw [hskip]
  exact hmore frames m after hr₁ (by rw [hr₁]; exact hm)

theorem Frame.skipped_nil (frame : Frame) : frame.Skipped [] := by
  intro frames fuel gap c tail h hfuel
  have hclose : c.skipSpace.rest = frame.closeByte :: tail :=
    Cursor.skipSpace_gap gap h (by cases frame <;> decide)
  refine ⟨fuel, c.skipSpace.next, proceed_close frame frames true fuel hclose,
    Cursor.next_rest hclose, ?_⟩
  rw [h, List.length_append, List.nil_append, List.length_cons] at hfuel
  omega

theorem length_next_skipSpace_lt {c : Cursor} {b : UInt8} {t : List UInt8}
    (h : c.skipSpace.rest = b :: t) : t.length < c.rest.length := by
  have hlen := length_skipSpace_le c
  rw [h, List.length_cons] at hlen
  omega

/-- Behind the comma there is the next element and what follows it. -/
theorem Form.Skipped.next_element {f : Form} (hf : f.Skipped) {es : Elements}
    (hes : Frame.list.Skipped (es.bytes false)) (before after : Gap) :
    Frame.list.Skipped ((Elements.cons before f after es).bytes false) := by
  intro frames fuel gap c tail h hfuel
  simp only [Elements.bytes, comma, Bool.false_eq_true, ↓reduceIte, List.append_assoc] at h
  have hcomma := Cursor.skipSpace_gap gap h (by decide)
  rw [resume_comma .list frames fuel hcomma, proceed_list]
  refine hf.part hes frames fuel before after (Cursor.next_rest hcomma)
    (endsNumber_elements es tail) ?_
  rw [Cursor.next_rest hcomma]
  have := length_next_skipSpace_lt hcomma
  omega

/-- Behind the comma there is the key of the next member, its value and what follows it. -/
theorem Form.Skipped.next_member {f : Form} (hf : f.Skipped) {ms : Members}
    (hms : Frame.object.Skipped (ms.bytes false)) (before : Gap) (key : List Piece)
    (beforeColon afterColon after : Gap) :
    Frame.object.Skipped
      ((Members.cons before key beforeColon afterColon f after ms).bytes false) := by
  intro frames fuel gap c tail h hfuel
  simp only [Members.bytes, comma, Bool.false_eq_true, ↓reduceIte, List.append_assoc,
    List.cons_append] at h
  have hcomma := Cursor.skipSpace_gap gap h (by decide)
  have hlen := length_next_skipSpace_lt hcomma
  obtain ⟨c₁, hkey, hr₁⟩ := skipKey_key before key beforeColon (Cursor.next_rest hcomma)
  rw [resume_comma .object frames fuel hcomma, proceed_object, hkey, ok_bind]
  refine hf.part hms frames fuel afterColon after hr₁ (endsNumber_members ms tail) ?_
  rw [hr₁]
  simp only [List.length_append, List.length_cons] at hlen ⊢
  omega

/-- Behind the opening bracket, the bytes are passed over up to the closing bracket, and with it the
value that it completes. -/
def Frame.Opened (frame : Frame) (inside : List UInt8) : Prop :=
  ∀ (frames : List Frame) (fuel : Nat) (gap : Gap) {c : Cursor} {tail : List UInt8},
    c.rest = gap.bytes ++ (inside ++ frame.closeByte :: tail) → c.rest.length < fuel →
    Completes (proceed fuel (closeFrames (frame :: frames) false c)) frames tail

theorem Frame.opened_nil (frame : Frame) : frame.Opened [] := by
  intro frames fuel gap c tail h hfuel
  have hclose : c.skipSpace.rest = frame.closeByte :: tail :=
    Cursor.skipSpace_gap gap h (by cases frame <;> decide)
  have hlen := length_next_skipSpace_lt hclose
  exact ⟨fuel, c.skipSpace.next, proceed_close frame frames false fuel hclose,
    Cursor.next_rest hclose, by omega⟩

theorem Form.Skipped.first_element {f : Form} (hf : f.Skipped) {es : Elements}
    (hes : Frame.list.Skipped (es.bytes false)) (before after : Gap) :
    Frame.list.Opened ((Elements.cons before f after es).bytes true) := by
  intro frames fuel gap c tail h hfuel
  simp only [Elements.bytes, comma, ↓reduceIte, List.nil_append, List.append_assoc] at h
  have hfirst : c.skipSpace.rest =
      f.bytes ++ (after.bytes ++ (es.bytes false ++ 0x5D :: tail)) :=
    skipSpace_gaps gap before f h
  have hlen := length_skipSpace_le c
  -- The value itself starts with no closing bracket.
  obtain ⟨b, t, hb, -, hne⟩ := f.exists_first
  have hopen :
      c.skipSpace.rest = b :: (t ++ (after.bytes ++ (es.bytes false ++ 0x5D :: tail))) := by
    rw [hfirst, hb]
    rfl
  rw [proceed_open .list frames fuel hopen hne, proceed_list]
  exact hf.part hes frames fuel Gap.none after hfirst (endsNumber_elements es tail) (by omega)

theorem Form.Skipped.first_member {f : Form} (hf : f.Skipped) {ms : Members}
    (hms : Frame.object.Skipped (ms.bytes false)) (before : Gap) (key : List Piece)
    (beforeColon afterColon after : Gap) :
    Frame.object.Opened
      ((Members.cons before key beforeColon afterColon f after ms).bytes true) := by
  intro frames fuel gap c tail h hfuel
  simp only [Members.bytes, comma, ↓reduceIte, List.nil_append, List.append_assoc,
    List.cons_append] at h
  have hquote : c.skipSpace.rest = stringBytes key ++ (beforeColon.bytes ++ 0x3A ::
      (afterColon.bytes ++ (f.bytes ++ (after.bytes ++ (ms.bytes false ++ 0x7D :: tail))))) :=
    skipSpace_gaps gap before (.text key) h
  have hlen := length_skipSpace_le c
  obtain ⟨c₁, hkey, hr₁⟩ := skipKey_key Gap.none key beforeColon hquote
  rw [proceed_open .object frames fuel hquote (by decide), proceed_object, hkey, ok_bind]
  refine hf.part hms frames fuel afterColon after hr₁ (endsNumber_members ms tail) ?_
  rw [hquote] at hlen
  rw [hr₁]
  simp only [List.length_append, List.length_cons] at hlen ⊢
  omega

theorem skipLoop_open (frame : Frame) {inside : List UInt8} (hinside : frame.Opened inside)
    (frames : List Frame) (fuel : Nat) (gap : Gap) {c : Cursor} {tail : List UInt8}
    (h : c.skipSpace.rest =
      frame.openByte :: (gap.bytes ++ (inside ++ frame.closeByte :: tail)))
    (hfuel : c.rest.length < fuel) : Completes (skipLoop fuel frames c) frames tail := by
  have hlen := length_next_skipSpace_lt h
  have hr := Cursor.next_rest h
  obtain ⟨fuel, rfl⟩ : ∃ n, fuel = n + 1 := ⟨fuel - 1, by omega⟩
  rw [skipLoop_succ, skipStart_open frame h, ok_bind]
  exact hinside frames fuel gap hr (by rw [hr]; omega)

/-- A word of the grammar, of which `b` is the first letter. -/
theorem Form.skipped_word {f : Form} (b : UInt8) (ws : List Char)
    (hf : f.bytes = b :: ws.map fun w => w.toNat.toUInt8) (hws : ∀ w ∈ ws, w.toNat < 256)
    (hstart : ∀ c : Cursor, c.skipSpace.peek? = some (Char.ofNat b.toNat) →
      skipStart c = (c.skipSpace.next.readWord ws).map fun c => (none, c)) : f.Skipped := by
  intro frames fuel c tail h _ hfuel
  have hword : c.skipSpace.rest = b :: (ws.map (fun w => w.toNat.toUInt8) ++ tail) := by
    rw [h, hf]
    rfl
  refine skipLoop_scalar h hfuel ?_
  rw [hstart c (Cursor.peek?_cons hword)]
  exact exists_scalar (readWord_eq_ok (Cursor.next_rest hword) hws)

theorem Form.skipped_null : Form.null.Skipped :=
  skipped_word 0x6E ['u', 'l', 'l'] rfl (by simp) fun c hp => by
    have hp : c.skipSpace.peek? = some 'n' := hp
    simp only [skipStart, hp]

theorem Form.skipped_boolean (b : Bool) : (Form.boolean b).Skipped := by
  cases b with
  | true =>
    refine skipped_word 0x74 ['r', 'u', 'e'] rfl (by simp) fun c hp => ?_
    have hp : c.skipSpace.peek? = some 't' := hp
    simp only [skipStart, hp]
  | false =>
    refine skipped_word 0x66 ['a', 'l', 's', 'e'] rfl (by simp) fun c hp => ?_
    have hp : c.skipSpace.peek? = some 'f' := hp
    simp only [skipStart, hp]

theorem Form.skipped_number (n : Numeral) : (Form.number n).Skipped :=
  fun _ _ _ _ h ht hfuel => skipLoop_scalar h hfuel (skipStart_number n h ht)

theorem Form.skipped_text (ps : List Piece) : (Form.text ps).Skipped := by
  intro frames fuel c tail h _ hfuel
  refine skipLoop_scalar h hfuel ?_
  rw [Form.bytes, stringBytes, List.cons_append, List.append_assoc] at h
  have hp : c.skipSpace.peek? = some '"' := Cursor.peek?_cons h
  simp only [skipStart, hp]
  exact exists_scalar (skipText_content ps (Cursor.next_rest h))

theorem Form.skipped_list {es : Elements} (hes : Frame.list.Opened (es.bytes true)) (gap : Gap) :
    (Form.list gap es).Skipped := by
  intro frames fuel c tail h _ hfuel
  simp only [Form.bytes, List.cons_append, List.append_assoc, List.nil_append] at h
  exact skipLoop_open .list hes frames fuel gap h hfuel

theorem Form.skipped_object {ms : Members} (hms : Frame.object.Opened (ms.bytes true)) (gap : Gap) :
    (Form.object gap ms).Skipped := by
  intro frames fuel c tail h _ hfuel
  simp only [Form.bytes, List.cons_append, List.append_assoc, List.nil_append] at h
  exact skipLoop_open .object hms frames fuel gap h hfuel

mutual

theorem Form.skipped : ∀ f : Form, f.Skipped
  | .null => Form.skipped_null
  | .boolean b => Form.skipped_boolean b
  | .number n => Form.skipped_number n
  | .text ps => Form.skipped_text ps
  | .list gap es => Form.skipped_list (Elements.opened es) gap
  | .object gap ms => Form.skipped_object (Members.opened ms) gap

theorem Elements.opened : ∀ es : Elements, Frame.list.Opened (es.bytes true)
  | .nil => Frame.list.opened_nil
  | .cons before f after es =>
    (Form.skipped f).first_element (Elements.skipped es) before after

theorem Elements.skipped : ∀ es : Elements, Frame.list.Skipped (es.bytes false)
  | .nil => Frame.list.skipped_nil
  | .cons before f after es =>
    (Form.skipped f).next_element (Elements.skipped es) before after

theorem Members.opened : ∀ ms : Members, Frame.object.Opened (ms.bytes true)
  | .nil => Frame.object.opened_nil
  | .cons before key beforeColon afterColon f after ms =>
    (Form.skipped f).first_member (Members.skipped ms) before key beforeColon afterColon after

theorem Members.skipped : ∀ ms : Members, Frame.object.Skipped (ms.bytes false)
  | .nil => Frame.object.skipped_nil
  | .cons before key beforeColon afterColon f after ms =>
    (Form.skipped f).next_member (Members.skipped ms) before key beforeColon afterColon after

end

/-- **Every value is passed over.** -/
theorem skipValue_form (f : Form) {c : Cursor} {tail : List UInt8}
    (h : c.skipSpace.rest = f.bytes ++ tail) (ht : EndsNumber tail) :
    Passes (skipValue c) tail := by
  obtain ⟨m, c', hskip, hrest, -⟩ := f.skipped [] (c.rest.length + 1) h ht (Nat.lt_succ_self _)
  exact ⟨c', by rw [skipValue, hskip, resume_nil], hrest⟩

/-! ## Nothing else is passed over -/

/-- What stands between brackets: all of it with `first`, otherwise what follows a value. -/
def Frame.Inside : Frame → Bool → List UInt8 → Prop
  | list, first, bytes => ∃ es : Elements, bytes = es.bytes first
  | object, first, bytes => ∃ ms : Members, bytes = ms.bytes first

/-- What stands in front of the white space before a value inside brackets. -/
def Frame.Lead : Frame → List UInt8 → Prop
  | list, bytes => bytes = []
  | object, bytes => ∃ (before : Gap) (key : List Piece) (beforeColon : Gap),
    bytes = before.bytes ++ (stringBytes key ++ (beforeColon.bytes ++ [0x3A]))

theorem Frame.inside_nil (frame : Frame) (first : Bool) : frame.Inside first [] := by
  cases frame with
  | list => exact ⟨.nil, rfl⟩
  | object => exact ⟨.nil, rfl⟩

/-- One more value inside the brackets. -/
theorem Frame.inside_cons (frame : Frame) (first : Bool) {lead more : List UInt8}
    (hlead : frame.Lead lead) (before : Gap) (f : Form) (after : Gap)
    (hmore : frame.Inside false more) :
    frame.Inside first
      (comma first ++ (lead ++ (before.bytes ++ (f.bytes ++ (after.bytes ++ more))))) := by
  cases frame with
  | list =>
    obtain ⟨es, rfl⟩ := hmore
    obtain rfl := hlead
    exact ⟨.cons before f after es, rfl⟩
  | object =>
    obtain ⟨ms, rfl⟩ := hmore
    obtain ⟨space, key, beforeColon, rfl⟩ := hlead
    refine ⟨.cons space key beforeColon before f after ms, ?_⟩
    simp only [Members.bytes, List.append_assoc, List.cons_append, List.nil_append]

/-- Brackets with something inside are a value. -/
theorem Frame.exists_form (frame : Frame) (gap : Gap) {inside : List UInt8}
    (h : frame.Inside true inside) (tail : List UInt8) :
    ∃ f : Form, frame.openByte :: (gap.bytes ++ (inside ++ frame.closeByte :: tail)) =
      f.bytes ++ tail := by
  cases frame with
  | list =>
    obtain ⟨es, rfl⟩ := h
    exact ⟨.list gap es, by simp [Form.bytes, openByte, closeByte]⟩
  | object =>
    obtain ⟨ms, rfl⟩ := h
    exact ⟨.object gap ms, by simp [Form.bytes, openByte, closeByte]⟩

theorem of_scalar {r : Except Fault Cursor} {opened : Option Frame} {c' : Cursor}
    (h : r.map (fun c => ((none : Option Frame), c)) = .ok (opened, c')) :
    opened = none ∧ r = .ok c' := by
  cases r with
  | error fault => cases h
  | ok c =>
    cases h
    exact ⟨rfl, rfl⟩

theorem rest_of_word {ch : Char} {ws : List Char} {c c' : Cursor} (hp : c.peek? = some ch)
    (h : c.next.readWord ws = .ok c') :
    c.rest = ch.toNat.toUInt8 :: (ws.map (fun w => w.toNat.toUInt8) ++ c'.rest) := by
  rw [Cursor.rest_eq_cons_next hp, rest_of_readWord h]

/-- A start passes over a value without parts or over an opening bracket. -/
theorem of_skipStart {c c' : Cursor} {opened : Option Frame} (h : skipStart c = .ok (opened, c')) :
    match opened with
    | none => ∃ f : Form, c.skipSpace.rest = f.bytes ++ c'.rest
    | some frame => c.skipSpace.rest = frame.openByte :: c'.rest := by
  rw [skipStart] at h
  dsimp only at h
  split at h
  case h_1 => cases h
  case h_2 hp =>
    obtain ⟨rfl, hword⟩ := of_scalar h
    exact ⟨.null, rest_of_word hp hword⟩
  case h_3 hp =>
    obtain ⟨rfl, hword⟩ := of_scalar h
    exact ⟨.boolean true, rest_of_word hp hword⟩
  case h_4 hp =>
    obtain ⟨rfl, hword⟩ := of_scalar h
    exact ⟨.boolean false, rest_of_word hp hword⟩
  case h_5 hp =>
    obtain ⟨rfl, hnumber⟩ := of_scalar h
    obtain ⟨n, hn, hr⟩ := exists_numeral_of_skipNumber hnumber true
    refine ⟨.number n, ?_⟩
    rw [Cursor.rest_eq_cons_next hp, hr, Form.bytes, Numeral.bytes, hn, if_pos rfl]
    rfl
  case h_6 hp =>
    obtain ⟨rfl, htext⟩ := of_scalar h
    obtain ⟨ps, hr⟩ := exists_content_of_skipText htext
    refine ⟨.text ps, ?_⟩
    rw [Cursor.rest_eq_cons_next hp, hr, Form.bytes, stringBytes]
    simp
  case h_7 hp =>
    cases h
    exact Cursor.rest_eq_cons_next hp
  case h_8 hp =>
    cases h
    exact Cursor.rest_eq_cons_next hp
  case h_9 =>
    split at h
    case isTrue =>
      obtain ⟨rfl, hnumber⟩ := of_scalar h
      obtain ⟨n, hn, hr⟩ := exists_numeral_of_skipNumber hnumber false
      exact ⟨.number n, by rw [hr, Form.bytes, Numeral.bytes, hn, if_neg Bool.false_ne_true]⟩
    case isFalse => cases h

theorem of_readColon {c c' : Cursor} (h : readColon c = .ok c') :
    ∃ gap : Gap, c.rest = gap.bytes ++ 0x3A :: c'.rest := by
  obtain ⟨gap, hgap⟩ := c.exists_gap
  rw [readColon] at h
  split at h
  case h_1 hp =>
    cases h
    exact ⟨gap, by rw [hgap, Cursor.rest_eq_cons_next hp]; rfl⟩
  case h_2 => cases h
  case h_3 => cases h

theorem of_skipKey {c c' : Cursor} (h : skipKey c = .ok c') :
    ∃ lead, Frame.object.Lead lead ∧ c.rest = lead ++ c'.rest := by
  obtain ⟨before, hbefore⟩ := c.exists_gap
  rw [skipKey] at h
  split at h
  case h_1 => cases h
  case h_3 => cases h
  case h_2 hp =>
    obtain ⟨c₁, htext, h⟩ := bind_eq_ok.1 h
    obtain ⟨key, hkey⟩ := exists_content_of_skipText htext
    obtain ⟨beforeColon, hcolon⟩ := of_readColon h
    refine ⟨_, ⟨before, key, beforeColon, rfl⟩, ?_⟩
    rw [hbefore, Cursor.rest_eq_cons_next hp, hkey, hcolon]
    simp [stringBytes]

theorem of_proceed {frame : Frame} {frames : List Frame} {fuel : Nat} {c c' : Cursor}
    (h : proceed fuel (.ok (frame :: frames, c)) = .ok c') :
    ∃ lead c₁, frame.Lead lead ∧ c.rest = lead ++ c₁.rest ∧
      skipLoop fuel (frame :: frames) c₁ = .ok c' := by
  cases frame with
  | list => exact ⟨[], c, rfl, rfl, h⟩
  | object =>
    rw [proceed_object] at h
    obtain ⟨c₁, hkey, h⟩ := bind_eq_ok.1 h
    obtain ⟨lead, hlead, hr⟩ := of_skipKey hkey
    exact ⟨lead, c₁, hlead, hr, h⟩

/-- Inside brackets the machine comes to the closing bracket or to the next part. -/
theorem of_closeFrames {frame : Frame} {frames : List Frame} {afterValue : Bool} {fuel : Nat}
    {c c' : Cursor}
    (h : proceed fuel (closeFrames (frame :: frames) afterValue c) = .ok c') :
    ∃ c₁, (c.skipSpace.rest = frame.closeByte :: c₁.rest ∧ resume fuel frames c₁ = .ok c') ∨
      (c.skipSpace.rest = comma (!afterValue) ++ c₁.rest ∧
        proceed fuel (.ok (frame :: frames, c₁)) = .ok c') := by
  rw [closeFrames] at h
  split at h
  case h_1 => cases h
  case h_2 b hp =>
    have hr := Cursor.rest_eq_cons_next hp
    split at h
    case isTrue hcomma =>
      obtain ⟨rfl, rfl⟩ := hcomma
      exact ⟨c.skipSpace.next, .inr ⟨hr, h⟩⟩
    case isFalse =>
      split at h
      case isTrue hclose =>
        refine ⟨c.skipSpace.next, .inl ⟨?_, h⟩⟩
        rw [hr, hclose]
        cases frame <;> rfl
      case isFalse =>
        split at h
        case isTrue => cases h
        case isFalse hfirst =>
          rw [Bool.not_eq_true] at hfirst
          exact ⟨c.skipSpace, .inr ⟨by rw [hfirst]; rfl, h⟩⟩

/-- What the machine passes over until the innermost bracket is closed. -/
def PassesInside (fuel : Nat) : Prop :=
  ∀ (frame : Frame) (frames : List Frame) (afterValue : Bool) {c c' : Cursor},
    proceed fuel (closeFrames (frame :: frames) afterValue c) = .ok c' →
    ∃ (gap : Gap) (inside : List UInt8) (m : Nat) (c₁ : Cursor),
      frame.Inside (!afterValue) inside ∧
      c.rest = gap.bytes ++ (inside ++ frame.closeByte :: c₁.rest) ∧
      resume m frames c₁ = .ok c' ∧ m ≤ fuel

/-- What the machine passes over until it resumes inside the same brackets is a value. -/
theorem exists_form_of_skipLoop {fuel : Nat} (hinside : ∀ m < fuel, PassesInside m)
    {frames : List Frame} {c c' : Cursor} (h : skipLoop fuel frames c = .ok c') :
    ∃ (gap : Gap) (f : Form) (m : Nat) (c₁ : Cursor),
      c.rest = gap.bytes ++ (f.bytes ++ c₁.rest) ∧ resume m frames c₁ = .ok c' ∧ m < fuel := by
  obtain ⟨gap, hgap⟩ := c.exists_gap
  cases fuel with
  | zero => cases h
  | succ fuel =>
    rw [skipLoop_succ] at h
    obtain ⟨⟨opened, c₁⟩, hstart, h⟩ := bind_eq_ok.1 h
    have hstart := of_skipStart hstart
    cases opened with
    | none =>
      obtain ⟨f, hf⟩ := hstart
      exact ⟨gap, f, fuel, c₁, by rw [hgap, hf], h, Nat.lt_succ_self fuel⟩
    | some frame =>
      obtain ⟨space, inside, m, c₂, hin, hr₁, hresume, hm⟩ :=
        hinside fuel (Nat.lt_succ_self fuel) frame frames false h
      obtain ⟨f, hf⟩ := frame.exists_form space hin c₂.rest
      refine ⟨gap, f, m, c₂, ?_, hresume, Nat.lt_succ_of_le hm⟩
      rw [hgap, hstart, hr₁, hf]

theorem passesInside (fuel : Nat) : PassesInside fuel := by
  induction fuel using Nat.strong_induction_on with
  | _ fuel ih =>
    intro frame frames afterValue c c' h
    obtain ⟨gap, hgap⟩ := c.exists_gap
    obtain ⟨c₁, ⟨hclose, hresume⟩ | ⟨hcomma, hpart⟩⟩ := of_closeFrames h
    · refine ⟨gap, [], fuel, c₁, frame.inside_nil _, ?_, hresume, Nat.le_refl fuel⟩
      rw [hgap, hclose, List.nil_append]
    · obtain ⟨lead, c₂, hlead, hr₁, hloop⟩ := of_proceed hpart
      obtain ⟨before, f, m, c₃, hr₂, hresume, hm⟩ := exists_form_of_skipLoop ih hloop
      -- Behind the value the machine is inside the same bracket, with less fuel.
      obtain ⟨after, more, m', c₄, hmore, hr₃, hresume', hm'⟩ := ih m hm frame frames true hresume
      refine ⟨gap, _, m', c₄, frame.inside_cons _ hlead before f after hmore, ?_, hresume',
        Nat.le_trans hm' (Nat.le_of_lt hm)⟩
      rw [hgap, hcomma, hr₁, hr₂, hr₃]
      simp only [List.append_assoc]

/-- **Nothing but a value is passed over.** -/
theorem exists_form_of_skipValue {c c' : Cursor} (h : skipValue c = .ok c') :
    ∃ (gap : Gap) (f : Form), c.rest = gap.bytes ++ (f.bytes ++ c'.rest) := by
  obtain ⟨gap, f, m, c₁, hr, hresume, -⟩ :=
    exists_form_of_skipLoop (fun m _ => passesInside m) h
  cases hresume
  exact ⟨gap, f, hr⟩

end Chassis.Json
