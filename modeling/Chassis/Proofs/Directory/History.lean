import Chassis.Directory
import Chassis.RpcStatus
import Mathlib.Data.List.Nodup

/-!
# What a directory does over time

> **a directory answers by the users that were created, whatever else was asked in between**
> (`Operation.directory_over_time`).

The other side of the directory is a list: the users that its operations returned, the latest first.
`Answers` says what an operation has to come to when these are the users so far, and which users
there are then; it knows nothing of a counter. `Holds` ties the list to the directory. One operation
keeps it and answers by it (`Holds.answers`), so every operation of a run does, as long as the
counter does not run over. What is true of the users (their numbers, addresses and names) is then
read off `Answers` alone.
-/

set_option autoImplicit false

namespace Chassis

/-! ## Operations -/

/-- What the directory can be asked for. -/
inductive Operation
  | get (id : String)
  | create (new : NewUser)

namespace Operation

/-- The result of the operation, and the directory after it. -/
def run (op : Operation) (d : Directory) : Except Failure User × Directory :=
  match op with
  | get id => (d.get id, d)
  | create new =>
    match d.create new with
    | .ok (u, after) => (.ok u, after)
    | .error f => (.error f, d)

def isCreate : Operation → Bool
  | get _ => false
  | create _ => true

/-- The directory after operations, the latest first. -/
def after : List Operation → Directory
  | [] => {}
  | op :: past => (op.run (after past)).2

/-- What an operation comes to after others. -/
def result (past : List Operation) (op : Operation) : Except Failure User :=
  (op.run (after past)).1

/-- The user that an operation creates after others. -/
def creates? (past : List Operation) (op : Operation) : Option User :=
  if op.isCreate then (result past op).toOption else none

/-- The users that operations created, the latest first. -/
def created : List Operation → List User
  | [] => []
  | op :: past => (op.creates? past).toList ++ created past

end Operation

/-! ## What may be created -/

namespace NewUser

variable (new : NewUser)

/-- The name has a character that can be seen. -/
def HasName : Prop := ∃ c ∈ new.name.toList, Text.isBlankChar c = false

def HasAddress : Prop := '@' ∈ new.email.toList

instance : Decidable new.HasName := List.decidableBEx _ _

instance : Decidable new.HasAddress := inferInstanceAs (Decidable (_ ∈ _))

/-- The names of the fields that are not valid. -/
def invalidFields : List String :=
  (if new.HasName then [] else ["name"]) ++ (if new.HasAddress then [] else ["email"])

theorem map_field_violations : new.violations.map (·.field) = new.invalidFields := by
  have hname : Text.isBlank new.name = true ↔ ¬ new.HasName := by
    simp [Text.isBlank, HasName]
  have haddress : new.email.toList.contains '@' = true ↔ new.HasAddress := List.contains_iff_mem
  rw [violations, invalidFields, List.map_append]
  congr 1
  · by_cases h : new.HasName
    · rw [if_pos h, if_neg (mt hname.1 (not_not_intro h))]
      rfl
    · rw [if_neg h, if_pos (hname.2 h)]
      rfl
  · by_cases h : new.HasAddress
    · rw [if_pos h, if_pos (haddress.2 h)]
      rfl
    · rw [if_neg h, if_neg (mt haddress.1 h)]
      rfl

theorem invalidFields_eq_nil_iff : new.invalidFields = [] ↔ new.HasName ∧ new.HasAddress := by
  by_cases hname : new.HasName <;> by_cases haddress : new.HasAddress <;>
    simp [invalidFields, hname, haddress]

end NewUser

/-! ## What an operation comes to -/

/-- The failure of a user that is not there. -/
structure Failure.IsMissing (f : Failure) (id : String) : Prop where
  code : f.code = .notFound
  ops : f.ops = ["users.get"]
  root : f.root = .kind (.notFound "user" id)

/-- What an operation comes to when these users were created, and which were created after it. -/
inductive Answers (us : List User) : Operation → Except Failure User → List User → Prop
  | found {u : User} (known : u ∈ us) : Answers us (.get u.id) (.ok u) us
  | missing {id : String} {f : Failure} (unknown : ∀ u ∈ us, u.id ≠ id) (told : f.IsMissing id) :
      Answers us (.get id) (.error f) us
  | invalid {new : NewUser} {f : Failure} {violations : List FieldViolation}
      (fields : violations.map (·.field) = new.invalidFields) (invalid : new.invalidFields ≠ [])
      (code : f.code = .invalidArgument) (ops : f.ops = ["users.create"])
      (details : f.details = [.badRequest violations]) :
      Answers us (.create new) (.error f) us
  | taken {new : NewUser} {f : Failure} (valid : new.HasName ∧ new.HasAddress)
      (known : ∃ u ∈ us, u.email = new.email) (code : f.code = .alreadyExists)
      (ops : f.ops = ["users.create"]) : Answers us (.create new) (.error f) us
  | created {new : NewUser} (valid : new.HasName ∧ new.HasAddress)
      (unknown : ∀ u ∈ us, u.email ≠ new.email) :
      Answers us (.create new) (.ok ⟨toString (us.length + 1), new.name, new.email⟩)
        (⟨toString (us.length + 1), new.name, new.email⟩ :: us)

/-! ## One operation -/

/-- The users are numbered in the order in which they were created, beginning with one. -/
def Numbered (us : List User) : Prop :=
  us.reverse.map (·.id) = (List.range us.length).map fun k => toString (k + 1)

theorem Numbered.cons {us : List User} (h : Numbered us) {u : User}
    (hid : u.id = toString (us.length + 1)) : Numbered (u :: us) := by
  rw [Numbered, List.reverse_cons, List.map_append, h, List.length_cons, List.range_succ,
    List.map_append, List.map_cons, List.map_cons, hid]
  rfl

/-- A number is known by its decimal text. -/
theorem toString_number_injective : Function.Injective fun k : Nat => toString (k + 1) := by
  intro a b hab
  have hdigits : Nat.toDigits 10 (a + 1) = Nat.toDigits 10 (b + 1) := String.ofList_injective hab
  have hnumber := congrArg (Nat.ofDigitChars 10 · 0) hdigits
  simpa [Nat.ofDigitChars_toDigits] using hnumber

/-- No two users have the same number. -/
theorem Numbered.nodup {us : List User} (h : Numbered us) : (us.map (·.id)).Nodup := by
  rw [← List.nodup_reverse, ← List.map_reverse, h]
  exact List.nodup_range.map toString_number_injective

/-- The directory holds these users and counts as many. -/
structure Directory.Holds (d : Directory) (us : List User) : Prop where
  users : d.users = us
  counted : d.created = us.length
  numbered : Numbered us

namespace Directory

variable {d : Directory} {us : List User}

theorem Holds.get_of_mem (h : d.Holds us) {u : User} (hu : u ∈ us) : d.get u.id = .ok u := by
  rw [get, find?, h.users]
  cases hfind : us.find? (·.id == u.id) with
  | none => exact absurd (List.find?_eq_none.1 hfind u hu) (by simp)
  | some u' =>
    have hid : u'.id = u.id := by simpa using List.find?_some hfind
    have hsame : u' = u :=
      List.inj_on_of_nodup_map h.numbered.nodup (List.mem_of_find?_eq_some hfind) hu hid
    rw [hsame]

theorem Holds.get_of_unknown (h : d.Holds us) {id : String} (hid : ∀ u ∈ us, u.id ≠ id) :
    ∃ f, d.get id = .error f ∧ f.IsMissing id := by
  have hfind : d.find? id = none := by
    rw [find?, h.users, List.find?_eq_none]
    exact fun u hu => by simpa using hid u hu
  rw [get, hfind]
  exact ⟨_, rfl, rfl, rfl, rfl⟩

theorem Holds.answers_get (h : d.Holds us) (id : String) : Answers us (.get id) (d.get id) us := by
  by_cases hid : ∃ u ∈ us, u.id = id
  · obtain ⟨u, hu, rfl⟩ := hid
    rw [h.get_of_mem hu]
    exact .found hu
  · obtain ⟨f, hget, hmissing⟩ := h.get_of_unknown fun u hu heq => hid ⟨u, hu, heq⟩
    rw [hget]
    exact .missing (fun u hu heq => hid ⟨u, hu, heq⟩) hmissing

/-- A user is refused for its fields before its address is looked for. -/
theorem Holds.answers_create (h : d.Holds us) (hfew : us.length + 1 < 0x10000000000000000)
    (new : NewUser) :
    ∃ us', Answers us (.create new) ((Operation.create new).run d).1 us' ∧
      ((Operation.create new).run d).2.Holds us' := by
  have hfields := new.map_field_violations
  have hcount : (d.created + 1) % 0x10000000000000000 = us.length + 1 := by
    rw [h.counted, Nat.mod_eq_of_lt hfew]
  rw [Operation.run, create]
  cases hviolations : new.violations with
  | cons v vs =>
    refine ⟨us, .invalid (hviolations ▸ hfields) ?_ rfl rfl rfl, h⟩
    rw [← hfields, hviolations]
    nofun
  | nil =>
    have hvalid : new.HasName ∧ new.HasAddress := by
      rw [← new.invalidFields_eq_nil_iff, ← hfields, hviolations]
      rfl
    by_cases htaken : ∃ u ∈ us, u.email = new.email
    · have hany : d.users.any (·.email == new.email) = true := by
        simpa [h.users] using htaken
      rw [if_pos hany]
      exact ⟨us, .taken hvalid htaken rfl rfl, h⟩
    · have hany : ¬ d.users.any (·.email == new.email) = true := by
        simpa [h.users] using htaken
      rw [if_neg hany, hcount]
      refine ⟨_, .created hvalid fun u hu heq => htaken ⟨u, hu, heq⟩, ?_, rfl, h.numbered.cons rfl⟩
      rw [h.users]

end Directory

/-- Users that were created have a name and an address, and no two of them the same address. -/
structure Proper (us : List User) : Prop where
  names : ∀ u ∈ us, ∃ c ∈ u.name.toList, Text.isBlankChar c = false
  addresses : ∀ u ∈ us, '@' ∈ u.email.toList
  emails : (us.map (·.email)).Nodup

namespace Answers

variable {us us' : List User} {op : Operation} {result : Except Failure User}

/-- Only a user that a creation returned is new. -/
theorem users_eq (h : Answers us op result us') :
    us' = (if op.isCreate then result.toOption else none).toList ++ us := by
  cases h <;> rfl

theorem proper (h : Answers us op result us') (hus : Proper us) : Proper us' := by
  cases h with
  | found | missing | invalid | taken => exact hus
  | @created new valid unknown =>
    constructor
    case names => exact List.forall_mem_cons.2 ⟨valid.1, hus.names⟩
    case addresses => exact List.forall_mem_cons.2 ⟨valid.2, hus.addresses⟩
    case emails =>
      refine List.nodup_cons.2 ⟨fun hmem => ?_, hus.emails⟩
      obtain ⟨u, hu, heq⟩ := List.mem_map.1 hmem
      exact unknown u hu heq

end Answers

/-! ## Whole runs -/

namespace Operation

/-- **A failing operation leaves the directory as it is.** -/
theorem run_eq_of_error {op : Operation} {d : Directory} {f : Failure}
    (h : (op.run d).1 = .error f) : (op.run d).2 = d := by
  cases op with
  | get id => rfl
  | create new =>
    cases hcreate : d.create new with
    | ok r =>
      simp only [run, hcreate] at h
      cases h
    | error f' => simp only [run, hcreate]

theorem length_created_le (past : List Operation) :
    (created past).length ≤ past.countP isCreate := by
  induction past with
  | nil => exact Nat.zero_le _
  | cons op past ih =>
    rw [created, List.length_append, List.countP_cons, creates?]
    cases hop : op.isCreate with
    | false =>
      simp only [Bool.false_eq_true, ↓reduceIte, Option.toList_none, List.length_nil]
      omega
    | true =>
      have hone : (result past op).toOption.toList.length ≤ 1 := Option.length_toList_le
      simp only [↓reduceIte]
      omega

/-- An operation of a run with few enough creations is answered by the users before it. -/
theorem answers {past : List Operation} {op : Operation}
    (h : (after past).Holds (created past))
    (hfew : (op :: past).countP isCreate < 0x10000000000000000) :
    Answers (created past) op (result past op) (created (op :: past)) ∧
      (after (op :: past)).Holds (created (op :: past)) := by
  cases op with
  | get id => exact ⟨h.answers_get id, h⟩
  | create new =>
    have hcount : (created past).length + 1 < 0x10000000000000000 := by
      have hle := length_created_le past
      rw [List.countP_cons_of_pos rfl] at hfew
      omega
    obtain ⟨us', hanswers, hholds⟩ := h.answers_create hcount new
    obtain rfl : us' = created (.create new :: past) := hanswers.users_eq
    exact ⟨hanswers, hholds⟩

/-- **A directory holds the users that were created.** -/
theorem holds_after (past : List Operation)
    (hfew : past.countP isCreate < 0x10000000000000000) :
    (after past).Holds (created past) ∧ Proper (created past) := by
  induction past with
  | nil => exact ⟨⟨rfl, rfl, rfl⟩, nofun, nofun, List.nodup_nil⟩
  | cons op past ih =>
    have hle : past.countP isCreate ≤ (op :: past).countP isCreate :=
      (List.sublist_cons_self op past).countP_le
    obtain ⟨hholds, hproper⟩ := ih (by omega)
    obtain ⟨hanswers, hholds'⟩ := answers hholds hfew
    exact ⟨hholds', hanswers.proper hproper⟩

/-- **A directory over time**, of which fewer than 2⁶⁴ creations are asked:

* every operation comes to what it has to by the users created before it, and one that fails leaves
  the directory as it was;
* the users in the directory are those that were created, the k-th one with the number k;
* no two have the same number or the same address, and all have a name and an address;
* whoever asks for a number gets the user who was created with it, and a failure that tells the
  number if there is none. -/
theorem directory_over_time (past : List Operation)
    (hfew : past.countP isCreate < 0x10000000000000000) :
    (∀ later op earlier, past = later ++ op :: earlier →
      Answers (created earlier) op (result earlier op) (created (op :: earlier)) ∧
        ∀ f, result earlier op = .error f → after (op :: earlier) = after earlier) ∧
    (after past).users = created past ∧
    (created past).reverse.map (·.id) =
      (List.range (created past).length).map (fun k => toString (k + 1)) ∧
    ((after past).users.map (·.id)).Nodup ∧
    ((after past).users.map (·.email)).Nodup ∧
    (∀ u ∈ (after past).users,
      (∃ c ∈ u.name.toList, Text.isBlankChar c = false) ∧ '@' ∈ u.email.toList) ∧
    (∀ u ∈ created past, (after past).get u.id = .ok u) ∧
    ∀ id, (∀ u ∈ created past, u.id ≠ id) →
      ∃ f, (after past).get id = .error f ∧ f.IsMissing id := by
  obtain ⟨hholds, hproper⟩ := holds_after past hfew
  refine ⟨?_, hholds.users, hholds.numbered, ?_, ?_, ?_, fun u => hholds.get_of_mem,
    fun id => hholds.get_of_unknown⟩
  · rintro later op earlier rfl
    have hop : (op :: earlier).countP isCreate ≤ (later ++ op :: earlier).countP isCreate :=
      (List.sublist_append_right later (op :: earlier)).countP_le
    have hearlier : earlier.countP isCreate ≤ (op :: earlier).countP isCreate :=
      (List.sublist_cons_self op earlier).countP_le
    have hbefore := (holds_after earlier (by omega)).1
    exact ⟨(answers hbefore (by omega)).1, fun f hf => run_eq_of_error hf⟩
  · rw [hholds.users]
    exact hholds.numbered.nodup
  · rw [hholds.users]
    exact hproper.emails
  · rw [hholds.users]
    exact fun u hu => ⟨hproper.names u hu, hproper.addresses u hu⟩

/-- Two users are created; in between one is refused for both of its fields and one for the address
alone. -/
theorem directory_over_time_refusals :
    let ada : Operation := .create ⟨"Ada", "ada@example.com"⟩
    let blank : Operation := .create ⟨"\t", "ada"⟩
    let eve : Operation := .create ⟨"Eve", "ada@example.com"⟩
    let bob : Operation := .create ⟨"Bob", "bob@example.com"⟩
    let past : List Operation := [bob, eve, .get "1", blank, ada]
    past.countP isCreate < 0x10000000000000000 ∧
      created past = [⟨"2", "Bob", "bob@example.com"⟩, ⟨"1", "Ada", "ada@example.com"⟩] ∧
      (after past).get "1" = .ok ⟨"1", "Ada", "ada@example.com"⟩ ∧
      after [blank, ada] = after [ada] ∧
      ∃ f, (after past).get "3" = .error f ∧ f.IsMissing "3" := by
  intro ada blank eve bob past
  have hfew : past.countP isCreate < 0x10000000000000000 := by decide
  have hcreated :
      created past = [⟨"2", "Bob", "bob@example.com"⟩, ⟨"1", "Ada", "ada@example.com"⟩] := by
    decide
  obtain ⟨hruns, -, -, -, -, -, hknown, hunknown⟩ := directory_over_time past hfew
  rw [hcreated] at hknown hunknown
  refine ⟨hfew, hcreated, hknown ⟨"1", "Ada", "ada@example.com"⟩ (by decide), ?_,
    hunknown "3" (by decide)⟩
  exact (hruns [bob, eve, .get "1"] blank [ada] rfl).2 _ rfl

end Operation

end Chassis
