import Chassis.Detail.Json
import Chassis.Proofs.Json.RoundTrip
import Mathlib.Logic.Function.Iterate

/-!
# Detail records survive their JSON form

> **the name and the payload of a record lead back to it** (`Detail.decode_typeName_valueJson`), and
> **what was read once stays as it is, however often it is written and read again**
> (`Detail.decode_loses_nothing`).

For the seven known types this is the round trip of a shape. A record of any other kind is the text
it came in, so it survives only if reading that text again keeps it as text: under a known name, the
text must not happen to be a payload of that type. `Detail.IsDecoded` says so without naming a type:
the record is one that reading gives.

Which texts are payloads is said by `Detail.Holds`, type by type and without the reader of records,
and the reader makes a record of a known type of exactly those (`Detail.decodeKnown?_eq_some_iff`).
-/

set_option autoImplicit false

namespace Chassis

open Json

namespace Detail

/-- The record is one that reading a name and a payload gives. -/
def IsDecoded (d : Detail) : Prop := ∃ typeName value, decode typeName value = d

theorem decodeKnown?_encode {α : Type} (l : Layout α) (hk : l.shape.distinctKeys = true)
    (make : α → Detail) (a : α) :
    (l.decode (Text.Utf8.encode (l.encode a))).toOption.map make = some (make a) := by
  rw [l.decode_encode hk]
  rfl

/-- What is read as a payload of a known type is a record of that type. -/
theorem decodeKnown?_ne_other (typeName value : String) {t v : String} :
    decodeKnown? typeName value ≠ some (other t v) := by
  intro h
  unfold decodeKnown? at h
  simp only at h
  split at h
  all_goals simp [Option.map_eq_some_iff] at h

/-- A record that is kept as text is kept with its own name and payload. -/
theorem decode_of_eq_other {typeName value t v : String} (h : decode typeName value = other t v) :
    decode t v = other t v := by
  rw [decode] at h
  cases hk : decodeKnown? typeName value with
  -- Nothing was read as a payload, so the record is the two texts.
  | none =>
    rw [hk] at h
    obtain ⟨rfl, rfl⟩ : typeName = t ∧ value = v := by simpa using h
    rw [decode, hk]
    rfl
  | some d =>
    rw [hk] at h
    have h : d = other t v := h
    exact absurd (h ▸ hk) (decodeKnown?_ne_other typeName value)

theorem decodeKnown?_typeName_valueJson {d : Detail} (h : ∀ t v, d ≠ other t v) :
    decodeKnown? d.typeName d.valueJson = some d := by
  cases d with
  | debug info => exact decodeKnown?_encode DebugInfo.layout rfl debug info
  | request info => exact decodeKnown?_encode RequestInfo.layout rfl request info
  | resource info => exact decodeKnown?_encode ResourceInfo.layout rfl resource info
  | quota vs => exact decodeKnown?_encode QuotaViolation.listLayout rfl quota vs
  | precondition vs =>
    exact decodeKnown?_encode PreconditionViolation.listLayout rfl precondition vs
  | badRequest vs => exact decodeKnown?_encode FieldViolation.listLayout rfl badRequest vs
  | error info => exact decodeKnown?_encode ErrorInfo.layout rfl error info
  | other t v => exact absurd rfl (h t v)

/-- **The name and the payload of a record lead back to it.** -/
theorem decode_typeName_valueJson {d : Detail} (h : ∀ t v, d = other t v → d.IsDecoded) :
    decode d.typeName d.valueJson = d := by
  by_cases ho : ∃ t v, d = other t v
  · obtain ⟨t, v, rfl⟩ := ho
    obtain ⟨typeName, value, hd⟩ := h t v rfl
    exact decode_of_eq_other hd
  · have hne : ∀ t v, d ≠ other t v := fun t v he => ho ⟨t, v, he⟩
    rw [decode, decodeKnown?_typeName_valueJson hne]
    rfl

theorem map_ofTexts_toTexts : ∀ {ds : List Detail},
    (∀ t v, other t v ∈ ds → (other t v).IsDecoded) → (ds.map toTexts).map ofTexts = ds
  | [], _ => rfl
  | d :: ds, h => by
    have hd : ofTexts d.toTexts = d :=
      decode_typeName_valueJson fun t v he => he ▸ h t v (he ▸ List.mem_cons_self)
    have ih := map_ofTexts_toTexts fun t v hm => h t v (List.mem_cons_of_mem d hm)
    rw [List.map_cons, List.map_cons, hd, ih]

/-! ## Which texts are payloads -/

/-- The names of the types that are known. -/
def knownNames : List String :=
  ["google.rpc.DebugInfo", "google.rpc.RequestInfo", "google.rpc.ResourceInfo",
    "google.rpc.QuotaFailure", "google.rpc.PreconditionFailure", "google.rpc.BadRequest",
    "google.rpc.ErrorInfo"]

/-- A text is read by a layout as a value. -/
def ReadsAs {α : Type} (l : Layout α) (text : String) (a : α) : Prop :=
  l.decode (Text.Utf8.encode text) = .ok a

/-- The record is of a known type, and the text is a payload of that type with its contents. -/
inductive Holds (text : String) : Detail → Prop
  | debug {info} (h : ReadsAs DebugInfo.layout text info) : Holds text (.debug info)
  | request {info} (h : ReadsAs RequestInfo.layout text info) : Holds text (.request info)
  | resource {info} (h : ReadsAs ResourceInfo.layout text info) : Holds text (.resource info)
  | quota {vs} (h : ReadsAs QuotaViolation.listLayout text vs) : Holds text (.quota vs)
  | precondition {vs} (h : ReadsAs PreconditionViolation.listLayout text vs) :
      Holds text (.precondition vs)
  | badRequest {vs} (h : ReadsAs FieldViolation.listLayout text vs) : Holds text (.badRequest vs)
  | error {info} (h : ReadsAs ErrorInfo.layout text info) : Holds text (.error info)

theorem Holds.typeName_mem {text : String} {d : Detail} (h : Holds text d) :
    d.typeName ∈ knownNames := by
  cases h <;> simp [typeName, knownNames]

theorem map_toOption_eq_some_iff {α : Type} {l : Layout α} {text : String} {make : α → Detail}
    {d : Detail} : (l.decode (Text.Utf8.encode text)).toOption.map make = some d ↔
      ∃ a, ReadsAs l text a ∧ make a = d := by
  simp only [ReadsAs]
  cases l.decode (Text.Utf8.encode text) with
  | error fault => simp [Except.toOption]
  | ok a => simp [Except.toOption]

/-- **A record of a known type is made of exactly the payloads of its type.** -/
theorem decodeKnown?_eq_some_iff {name text : String} {d : Detail} :
    decodeKnown? name text = some d ↔ d.typeName = name ∧ Holds text d := by
  constructor
  · intro h
    unfold decodeKnown? at h
    simp only at h
    split at h
    case h_8 => cases h
    all_goals
      obtain ⟨a, ha, rfl⟩ := map_toOption_eq_some_iff.1 h
      exact ⟨rfl, by constructor; exact ha⟩
  · rintro ⟨rfl, h⟩
    cases h with
    | debug h => exact map_toOption_eq_some_iff.2 ⟨_, h, rfl⟩
    | request h => exact map_toOption_eq_some_iff.2 ⟨_, h, rfl⟩
    | resource h => exact map_toOption_eq_some_iff.2 ⟨_, h, rfl⟩
    | quota h => exact map_toOption_eq_some_iff.2 ⟨_, h, rfl⟩
    | precondition h => exact map_toOption_eq_some_iff.2 ⟨_, h, rfl⟩
    | badRequest h => exact map_toOption_eq_some_iff.2 ⟨_, h, rfl⟩
    | error h => exact map_toOption_eq_some_iff.2 ⟨_, h, rfl⟩

/-! ## Reading and writing again -/

/-- A record keeps the name that it was read under. -/
theorem typeName_decode (name text : String) : (decode name text).typeName = name := by
  rw [decode]
  cases h : decodeKnown? name text with
  | none => rfl
  | some d => exact (decodeKnown?_eq_some_iff.1 h).1

/-- A text that is no payload of the type is kept as it is. -/
theorem decode_of_not_holds {name text : String}
    (h : ∀ d : Detail, d.typeName = name → ¬ Holds text d) :
    decode name text = other name text := by
  have hnone : decodeKnown? name text = none := by
    refine Option.eq_none_iff_forall_ne_some.2 fun d hd => ?_
    obtain ⟨hname, hholds⟩ := decodeKnown?_eq_some_iff.1 hd
    exact h d hname hholds
  rw [decode, hnone]
  rfl

theorem isDecoded_decode (name text : String) : (decode name text).IsDecoded := ⟨name, text, rfl⟩

/-- The record that is made of the name and the payload of a record. -/
def reread (d : Detail) : Detail := decode d.typeName d.valueJson

theorem reread_of_isDecoded {d : Detail} (h : d.IsDecoded) : d.reread = d :=
  decode_typeName_valueJson fun _ _ _ => h

/-- The JSON text of a record leads back to it. -/
theorem ofJson_encode {d : Detail} (h : ∀ t v, d = other t v → d.IsDecoded) :
    ofJson (Text.Utf8.encode d.encode) = .ok d := by
  have hread := shape.readDocument_write rfl d.toTexts
  rw [ofJson, encode, Text.Utf8.encode, String.toList_ofList, hread]
  exact congrArg Except.ok (decode_typeName_valueJson h)

/-- **Reading records loses nothing.** A record of a known type is read back from its name and its
payload, and from its JSON text. Any two texts make a record that has the first as its name, that
stays as it is however often it is written and read again, and that has the second as its payload
unless the name is known and the text is a payload of that type. -/
theorem decode_loses_nothing :
    (∀ d : Detail, (∀ t v, d ≠ other t v) →
      decode d.typeName d.valueJson = d ∧ ofJson (Text.Utf8.encode d.encode) = .ok d) ∧
    ∀ name text : String,
      (decode name text).typeName = name ∧
      decode name (decode name text).valueJson = decode name text ∧
      ofJson (Text.Utf8.encode (decode name text).encode) = .ok (decode name text) ∧
      (name ∉ knownNames → (decode name text).valueJson = text) ∧
      ((∀ d : Detail, d.typeName = name → ¬ Holds text d) →
        (decode name text).valueJson = text) ∧
      ∀ n, reread^[n] (decode name text) = decode name text := by
  refine ⟨fun d hknown => ?_, fun name text => ?_⟩
  · have h : ∀ t v, d = other t v → d.IsDecoded := fun t v he => absurd he (hknown t v)
    exact ⟨decode_typeName_valueJson h, ofJson_encode h⟩
  · have hdecoded := isDecoded_decode name text
    have hname := typeName_decode name text
    have hagain : (decode name text).reread = decode name text := reread_of_isDecoded hdecoded
    have hverbatim : (∀ d : Detail, d.typeName = name → ¬ Holds text d) →
        (decode name text).valueJson = text := by
      intro h
      rw [decode_of_not_holds h]
      rfl
    refine ⟨hname, ?_, ofJson_encode fun _ _ _ => hdecoded, fun hunknown => ?_, hverbatim,
      Function.iterate_fixed hagain⟩
    · rwa [reread, hname] at hagain
    · exact hverbatim fun d hd h => hunknown (hd ▸ h.typeName_mem)

example : decode "google.rpc.ErrorInfo" "not json" = other "google.rpc.ErrorInfo" "not json" := by
  decide

end Detail

end Chassis
