import Chassis.Kind
import Chassis.Proofs.Text.Quoted

/-!
# What a message tells of a kind

> **the message of a kind tells the kind and every field of it** (`Kind.message_eq_iff`).

A field may hold anything, also what looks like the rest of a message: `a", id = "b` is a fine
name. It makes no difference, because a field is quoted and a quoted text shows where it ends. Which
of the four formats it is shows in the base, and there in the first letter.

The first three formats have a fixed number of fields, and each field is known as soon as the one
before it is. The last one has any number of violations and nothing behind them. There it counts
that none is written by the empty text.
-/

set_option autoImplicit false

namespace Chassis.Kind

open Text

/-! ## The parts of a message -/

theorem selfDelimiting_item (name : String) : SelfDelimiting fun v => (item name v).toList := by
  intro v w x y heq
  simp only [item, String.toList_append, List.append_assoc, List.append_cancel_left_eq] at heq
  exact selfDelimiting_quote v w x y heq

theorem selfDelimiting_violationText : SelfDelimiting fun v => (violationText v).toList := by
  rintro ⟨field, description⟩ ⟨field', description'⟩ x y heq
  simp only [violationText, String.toList_append, List.append_assoc,
    List.append_cancel_left_eq] at heq
  obtain ⟨rfl, hbehind⟩ := selfDelimiting_item "field" field field' _ _ heq
  rw [List.append_cancel_left_eq] at hbehind
  obtain ⟨rfl, hend⟩ := selfDelimiting_item "desc" description description' _ _ hbehind
  rw [List.append_cancel_left_eq] at hend
  exact ⟨rfl, hend⟩

theorem violationText_ne_nil (v : FieldViolation) : (violationText v).toList ≠ [] := by
  intro hnil
  simp [violationText] at hnil

theorem head?_message (k : Kind) : k.message.toList.head? = k.base.toList.head? := by
  cases k <;> simp [message, base]

/-! ## Whole messages -/

/-- **The message of a kind tells the kind and every field of it**, whatever characters the fields
hold. -/
theorem message_eq_iff (a b : Kind) : a.message = b.message ↔ a = b := by
  refine ⟨fun h => ?_, fun h => by rw [h]⟩
  have hfirst : a.base.toList.head? = b.base.toList.head? := by
    rw [← head?_message, ← head?_message, h]
  have htext : a.message.toList = b.message.toList := by rw [h]
  cases a with
  | notFound resourceType id =>
    cases b with
    | notFound resourceType' id' =>
      simp only [message, base, String.toList_append, List.append_assoc,
        List.append_cancel_left_eq] at htext
      obtain ⟨rfl, hid⟩ := selfDelimiting_item "type" resourceType resourceType' _ _ htext
      rw [List.append_cancel_left_eq] at hid
      rw [(selfDelimiting_item "id").injective hid]
    | _ => simp [base] at hfirst
  | resourceExhausted subject description =>
    cases b with
    | resourceExhausted subject' description' =>
      simp only [message, base, String.toList_append, List.append_assoc,
        List.append_cancel_left_eq] at htext
      obtain ⟨rfl, hdescription⟩ := selfDelimiting_item "subject" subject subject' _ _ htext
      rw [List.append_cancel_left_eq] at hdescription
      rw [(selfDelimiting_item "desc").injective hdescription]
    | _ => simp [base] at hfirst
  | failedPrecondition type subject description =>
    cases b with
    | failedPrecondition type' subject' description' =>
      simp only [message, base, String.toList_append, List.append_assoc,
        List.append_cancel_left_eq] at htext
      obtain ⟨rfl, hsubject⟩ := selfDelimiting_item "type" type type' _ _ htext
      rw [List.append_cancel_left_eq] at hsubject
      obtain ⟨rfl, hdescription⟩ := selfDelimiting_item "subject" subject subject' _ _ hsubject
      rw [List.append_cancel_left_eq] at hdescription
      rw [(selfDelimiting_item "desc").injective hdescription]
    | _ => simp [base] at hfirst
  | badRequest violations =>
    cases b with
    | badRequest violations' =>
      simp only [message, base, String.toList_append, String.toList_join, List.flatMap_map,
        List.append_assoc, List.append_cancel_left_eq] at htext
      rw [selfDelimiting_violationText.flatMap_injective violationText_ne_nil htext]
    | _ => simp [base] at hfirst

/-- A field that looks like the rest of a message is told apart from it. -/
example : (notFound "a\", id = \"b" "c").message =
    "not found, type = \"a\\\", id = \\\"b\", id = \"c\"" := by
  decide

end Chassis.Kind
