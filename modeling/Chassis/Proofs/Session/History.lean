import Chassis.Proofs.Session.Operations

/-!
# What the history of a session says of its components

> **the slots of a session are a function of its history** (`Recorded.run`).

A history knows nothing of slots: it says what was registered under a name (`registered?`), whether
anybody asked for it (`wasAsked`), and which action was the first to ask (`Action.makes?`).
`Recorded` is the invariant that ties these to the slots of the state. Every action keeps it, and
under it each action on the registry has one equation for its whole turn
(`Recorded.act_register_taken` to `Recorded.act_get_first`), from which answers, notes and the state
after it are read off.
-/

set_option autoImplicit false

namespace Chassis.Session

/-! ## What a history says -/

/-- The slot that an action registers under a name, if it registers one. -/
def Action.registers? (fullName : String) : Action → Option Slot
  | .register label recipe source _ =>
    if recipe.fullName label = fullName then
      some { fullName := recipe.fullName label, recipe, source }
    else none
  | _ => none

/-- The slot under a name as it was registered. The first registration counts. -/
def registered? : List Action → String → Option Slot
  | [], _ => none
  | a :: past, fullName => (registered? past fullName).or (a.registers? fullName)

/-- The component that an action asks for: one that it registers under a free name to be made at
once, or one that it gets by the right type. -/
def Action.asks? (past : List Action) : Action → Option Slot
  | .register label recipe source false =>
    match registered? past (recipe.fullName label) with
    | some _ => none
    | none => some { fullName := recipe.fullName label, recipe, source }
  | .get fullName type => (registered? past fullName).filter (·.recipe.type = type)
  | _ => none

/-- Whether any action asked for the component under a name. -/
def wasAsked : List Action → String → Bool
  | [], _ => false
  | a :: past, fullName => wasAsked past fullName || (a.asks? past).any (·.fullName == fullName)

/-- The component that an action is the first to ask for. -/
def Action.makes? (past : List Action) (a : Action) : Option Slot :=
  (a.asks? past).filter fun slot => !wasAsked past slot.fullName

/-- The components that were made, the latest first. -/
def made : List Action → List Slot
  | [] => []
  | a :: past => (a.makes? past).toList ++ made past

section History

variable {past : List Action} {a : Action} {slot : Slot} {fullName : String}

theorem registered?_cons_of_some (h : registered? past fullName = some slot) (a : Action) :
    registered? (a :: past) fullName = some slot := by
  simp [registered?, h]

theorem registered?_cons_of_not_registers (h : a.registers? fullName = none) :
    registered? (a :: past) fullName = registered? past fullName := by
  simp [registered?, h]

theorem registered?_append (h : registered? past fullName = some slot) (later : List Action) :
    registered? (later ++ past) fullName = some slot := by
  induction later with
  | nil => exact h
  | cons a later ih => exact registered?_cons_of_some ih a

/-- A registered slot has its name, and nothing came of it yet. -/
theorem registered?_spec (h : registered? past fullName = some slot) :
    slot.fullName = fullName ∧ slot.outcome = none := by
  induction past with
  | nil => cases h
  | cons a past ih =>
    rcases Option.or_eq_some_iff.1 h with hpast | ⟨-, hnew⟩
    · exact ih hpast
    · cases a with
      | register label recipe source lazy =>
        simp only [Action.registers?] at hnew
        split at hnew
        · obtain rfl := Option.some.inj hnew
          exact ⟨‹_›, rfl⟩
        · cases hnew
      | _ => cases hnew

theorem asks?_get (h : registered? past fullName = some slot) :
    (Action.get fullName slot.recipe.type).asks? past = some slot := by
  simp [Action.asks?, h]

theorem registered?_of_asks? (h : a.asks? past = some slot) :
    registered? (a :: past) slot.fullName = some slot := by
  cases a with
  | register label recipe source lazy =>
    cases lazy with
    | true => cases h
    | false =>
      simp only [Action.asks?] at h
      split at h
      · cases h
      · obtain rfl := Option.some.inj h
        simp [registered?, Action.registers?, *]
  | get name type =>
    have hpast : registered? past name = some slot := (Option.filter_eq_some_iff.1 h).1
    obtain ⟨rfl, -⟩ := registered?_spec hpast
    exact registered?_cons_of_some hpast _
  | _ => cases h

theorem wasAsked_cons_of_not_asks (h : a.asks? past = none) (fullName : String) :
    wasAsked (a :: past) fullName = wasAsked past fullName := by
  simp [wasAsked, h]

theorem wasAsked_cons_of_asks (h : a.asks? past = some slot) (fullName : String) :
    wasAsked (a :: past) fullName = (wasAsked past fullName || slot.fullName == fullName) := by
  simp [wasAsked, h]

theorem wasAsked_append (h : wasAsked past fullName = true) (later : List Action) :
    wasAsked (later ++ past) fullName = true := by
  induction later with
  | nil => exact h
  | cons a later ih =>
    rw [List.cons_append, wasAsked, ih]
    rfl

theorem registered?_of_wasAsked (h : wasAsked past fullName = true) :
    ∃ slot, registered? past fullName = some slot := by
  induction past with
  | nil => cases h
  | cons a past ih =>
    rcases Bool.or_eq_true_iff.1 h with hpast | hnew
    · obtain ⟨slot, hslot⟩ := ih hpast
      exact ⟨slot, registered?_cons_of_some hslot a⟩
    · cases hasks : a.asks? past with
      | none =>
        rw [hasks] at hnew
        cases hnew
      | some slot =>
        rw [hasks] at hnew
        obtain rfl : slot.fullName = fullName := beq_iff_eq.1 hnew
        exact ⟨slot, registered?_of_asks? hasks⟩

theorem not_wasAsked_of_not_registered (h : registered? past fullName = none) :
    wasAsked past fullName = false := by
  refine Bool.eq_false_iff.2 fun hasked => ?_
  obtain ⟨slot, hslot⟩ := registered?_of_wasAsked hasked
  rw [h] at hslot
  cases hslot

theorem makes?_eq_some_iff :
    a.makes? past = some slot ↔
      a.asks? past = some slot ∧ wasAsked past slot.fullName = false := by
  rw [Action.makes?, Option.filter_eq_some_iff, Bool.not_eq_true']

end History

/-! ## The slots of a session -/

/-- The slot under a name with what came of it by now. -/
def current? (past : List Action) (fullName : String) : Option Slot :=
  (registered? past fullName).map fun slot =>
    if wasAsked past fullName then { slot with outcome := some slot.result } else slot

/-- The slots of a state are what a history says of them. -/
structure Recorded (past : List Action) (s : State) : Prop where
  slot?_eq : ∀ fullName, s.slot? fullName = current? past fullName
  nodup : (s.slots.map (·.fullName)).Nodup

namespace Recorded

variable {past : List Action} {s : State} {a : Action} {slot : Slot} {fullName : String}

theorem start : Recorded [] {} where
  slot?_eq _ := rfl
  nodup := List.nodup_nil

theorem slot?_of_not_registered (h : Recorded past s) (hX : registered? past fullName = none) :
    s.slot? fullName = none := by
  rw [h.slot?_eq, current?, hX]
  rfl

theorem slot?_of_asked (h : Recorded past s) (hX : registered? past fullName = some slot)
    (hasked : wasAsked past fullName = true) :
    s.slot? fullName = some { slot with outcome := some slot.result } := by
  rw [h.slot?_eq, current?, hX]
  simp [hasked]

theorem slot?_of_not_asked (h : Recorded past s) (hX : registered? past fullName = some slot)
    (hasked : wasAsked past fullName = false) : s.slot? fullName = some slot := by
  rw [h.slot?_eq, current?, hX]
  simp [hasked]

theorem exists_slot? (h : Recorded past s) (hX : registered? past fullName = some slot) :
    ∃ outcome, s.slot? fullName = some { slot with outcome } := by
  cases hasked : wasAsked past fullName with
  | true => exact ⟨_, h.slot?_of_asked hX hasked⟩
  | false => exact ⟨slot.outcome, h.slot?_of_not_asked hX hasked⟩

theorem isInitialized_eq (h : Recorded past s) (fullName : String) :
    s.isInitialized fullName = wasAsked past fullName := by
  rw [State.isInitialized]
  cases hX : registered? past fullName with
  | none => rw [h.slot?_of_not_registered hX, not_wasAsked_of_not_registered hX, Option.any_none]
  | some slot =>
    cases hasked : wasAsked past fullName with
    | true =>
      rw [h.slot?_of_asked hX hasked]
      rfl
    | false =>
      rw [h.slot?_of_not_asked hX hasked, Option.any_some, (registered?_spec hX).2]
      rfl

/-! ### One turn on the registry -/

section Turns

variable {label : String} {recipe : Recipe} {source : Source} {type : ComponentType}

theorem act_register_taken (h : Recorded past s)
    (hX : registered? past (recipe.fullName label) = some slot) (lazy : Bool) :
    s.act (.register label recipe source lazy) =
      { answer := .accessor (.error (.duplicate (recipe.fullName label))), after := s } := by
  obtain ⟨outcome, hslot⟩ := h.exists_slot? hX
  simp only [State.act, State.register_of_taken hslot]
  rfl

theorem act_register_lazy (h : Recorded past s)
    (hX : registered? past (recipe.fullName label) = none) :
    s.act (.register label recipe source true) =
      { answer := .accessor (.ok (recipe.fullName label, false))
        after := { s with slots :=
          s.slots ++ [{ fullName := recipe.fullName label, recipe, source }] } } := by
  have hslot := h.slot?_of_not_registered hX
  simp only [State.act, State.register_lazy hslot, Except.map, State.isInitialized]
  rw [State.slot?_insert hslot, if_pos rfl]
  rfl

theorem act_register_eager (h : Recorded past s)
    (hX : registered? past (recipe.fullName label) = none) :
    let slot : Slot := { fullName := recipe.fullName label, recipe, source }
    s.act (.register label recipe source false) =
      { answer := .accessor
          ((State.outcomeOf slot.fullName slot.result).map fun _ => (slot.fullName, true))
        notes := slot.notes
        after := { s with slots := s.slots ++ [slot] }.afterMaking slot } := by
  intro slot
  have hslot : s.slot? slot.fullName = none := h.slot?_of_not_registered hX
  have hmade : ({ s with slots := s.slots ++ [slot] }.afterMaking slot).isInitialized
      slot.fullName = true := by
    rw [State.isInitialized, State.slot?_afterMaking, State.slot?_insert hslot, if_pos rfl]
    simp
  simp only [State.act, State.register_eager hslot]
  cases slot.result with
  | error reason => rfl
  | ok value =>
    simp only [State.outcomeOf, Except.map]
    rw [hmade]

theorem act_get_unknown (h : Recorded past s) (hX : registered? past fullName = none) :
    s.act (.get fullName type) =
      { answer := .component (.error (.unknown fullName)), after := s } := by
  have hrefused : s.accessor fullName type = .error (.unknown fullName) := by
    rw [State.accessor, h.slot?_of_not_registered hX]
  simp only [State.act, State.get_of_refused hrefused]

theorem act_get_mismatch (h : Recorded past s) (hX : registered? past fullName = some slot)
    (htype : slot.recipe.type ≠ type) :
    s.act (.get fullName type) =
      { answer := .component (.error (.typeMismatch fullName type)), after := s } := by
  obtain ⟨outcome, hslot⟩ := h.exists_slot? hX
  have hrefused : s.accessor fullName type = .error (.typeMismatch fullName type) := by
    rw [State.accessor, hslot]
    exact if_neg htype
  simp only [State.act, State.get_of_refused hrefused]

theorem act_get_made (h : Recorded past s) (hX : registered? past fullName = some slot)
    (hasked : wasAsked past fullName = true) :
    s.act (.get fullName slot.recipe.type) =
      { answer := .component (State.outcomeOf fullName slot.result), after := s } := by
  have haccess : s.accessor fullName slot.recipe.type =
      .ok { slot with outcome := some slot.result } := by
    rw [State.accessor, h.slot?_of_asked hX hasked]
    exact if_pos rfl
  have huse : s.use { slot with outcome := some slot.result } =
      (s, State.outcomeOf slot.fullName slot.result, []) := State.use_of_made rfl
  obtain ⟨rfl, -⟩ := registered?_spec hX
  simp only [State.act, State.get_of_accessor haccess, huse]

theorem act_get_first (h : Recorded past s) (hX : registered? past fullName = some slot)
    (hasked : wasAsked past fullName = false) :
    s.act (.get fullName slot.recipe.type) =
      { answer := .component (State.outcomeOf fullName slot.result), notes := slot.notes
        after := s.afterMaking slot } := by
  have haccess : s.accessor fullName slot.recipe.type = .ok slot := by
    rw [State.accessor, h.slot?_of_not_asked hX hasked]
    exact if_pos rfl
  obtain ⟨rfl, hnone⟩ := registered?_spec hX
  simp only [State.act, State.get_of_accessor haccess, State.use_of_not_made hnone]

/-- **A get** is refused, told what came of the component before, or the first to ask for it. -/
theorem act_get (h : Recorded past s) (fullName : String) (type : ComponentType) :
    (∃ e : RegistryError, e.isFatal = false ∧ (Action.get fullName type).asks? past = none ∧
      s.act (.get fullName type) = { answer := .component (.error e), after := s }) ∨
    ∃ slot, registered? past slot.fullName = some slot ∧
      (Action.get fullName type).asks? past = some slot ∧
      (wasAsked past slot.fullName = true ∧
          s.act (.get fullName type) =
            { answer := .component (State.outcomeOf slot.fullName slot.result), after := s } ∨
        wasAsked past slot.fullName = false ∧
          s.act (.get fullName type) =
            { answer := .component (State.outcomeOf slot.fullName slot.result)
              notes := slot.notes, after := s.afterMaking slot }) := by
  cases hX : registered? past fullName with
  | none => exact .inl ⟨_, rfl, by simp [Action.asks?, hX], h.act_get_unknown hX⟩
  | some slot =>
    by_cases htype : slot.recipe.type = type
    · subst htype
      obtain ⟨rfl, -⟩ := registered?_spec hX
      refine .inr ⟨slot, hX, asks?_get hX, ?_⟩
      cases hasked : wasAsked past slot.fullName with
      | true => exact .inl ⟨rfl, h.act_get_made hX hasked⟩
      | false => exact .inr ⟨rfl, h.act_get_first hX hasked⟩
    · exact .inl ⟨_, rfl, by simp [Action.asks?, hX, htype], h.act_get_mismatch hX htype⟩

end Turns

/-! ### Every turn keeps the record -/

theorem of_slots_eq {s' : State} (h : Recorded past s) (hslots : s'.slots = s.slots) :
    Recorded past s' where
  slot?_eq := by
    intro fullName
    rw [← h.slot?_eq, State.slot?, hslots, State.slot?]
  nodup := hslots ▸ h.nodup

/-- An action that neither registers nor asks for a component leaves the record as it is. -/
theorem cons_of_idle (h : Recorded past s) (hreg : ∀ X, a.registers? X = none)
    (hasks : a.asks? past = none) : Recorded (a :: past) s where
  slot?_eq := by
    intro X
    rw [h.slot?_eq, current?, current?, registered?_cons_of_not_registers (hreg X),
      wasAsked_cons_of_not_asks hasks]
  nodup := h.nodup

/-- So does one that asks again, or registers what is registered. -/
theorem cons_of_repeated (h : Recorded past s)
    (hreg : ∀ X, registered? (a :: past) X = registered? past X)
    (hasks : ∀ X, wasAsked (a :: past) X = wasAsked past X) : Recorded (a :: past) s where
  slot?_eq := by
    intro X
    rw [h.slot?_eq, current?, current?, hreg, hasks]
  nodup := h.nodup

theorem insert (h : Recorded past s) (hX : registered? past slot.fullName = none)
    (hreg : ∀ X, a.registers? X = if slot.fullName = X then some slot else none)
    (hasked : ∀ X, wasAsked (a :: past) X = wasAsked past X) :
    Recorded (a :: past) { s with slots := s.slots ++ [slot] } where
  slot?_eq := by
    intro X
    have hslot := h.slot?_of_not_registered hX
    rw [State.slot?_insert hslot, h.slot?_eq, current?, current?, hasked, registered?, hreg]
    by_cases hname : X = slot.fullName
    · subst hname
      simp [hX, not_wasAsked_of_not_registered hX]
    · simp [hname, Ne.symm hname]
  nodup := by
    have hslot := h.slot?_of_not_registered hX
    have hnew : slot.fullName ∉ s.slots.map (·.fullName) := by
      rw [State.mem_fullNames_iff, hslot]
      simp
    rw [List.map_append, List.nodup_append]
    refine ⟨h.nodup, by simp, ?_⟩
    rintro X hmem Y hY rfl
    obtain rfl : X = slot.fullName := by simpa using hY
    exact hnew hmem

theorem make (h : Recorded past s) (hX : registered? past slot.fullName = some slot)
    (hasked : wasAsked past slot.fullName = false) {past' : List Action}
    (hreg : ∀ X, registered? past' X = registered? past X)
    (hasks : ∀ X, wasAsked past' X = (wasAsked past X || slot.fullName == X)) :
    Recorded past' (s.afterMaking slot) where
  slot?_eq := by
    intro X
    rw [State.slot?_afterMaking, h.slot?_eq, current?, current?, hreg, hasks]
    by_cases hname : X = slot.fullName
    · subst hname
      simp [hX, hasked]
    · simp [hname, Ne.symm hname, Function.comp_def]
  nodup := by
    rw [State.fullNames_afterMaking]
    exact h.nodup

theorem register (h : Recorded past s) (label : String) (recipe : Recipe) (source : Source)
    (lazy : Bool) :
    Recorded (.register label recipe source lazy :: past)
      (s.act (.register label recipe source lazy)).after := by
  cases hX : registered? past (recipe.fullName label) with
  | some slot =>
    rw [h.act_register_taken hX]
    have hasks : (Action.register label recipe source lazy).asks? past = none := by
      cases lazy with
      | true => rfl
      | false => simp [Action.asks?, hX]
    refine h.cons_of_repeated (fun X => ?_) (wasAsked_cons_of_not_asks hasks)
    by_cases hname : recipe.fullName label = X
    · subst hname
      rw [hX, registered?_cons_of_some hX]
    · exact registered?_cons_of_not_registers (if_neg hname)
  | none =>
    have hlazy : Recorded (.register label recipe source true :: past)
        (s.act (.register label recipe source true)).after := by
      rw [h.act_register_lazy hX]
      exact h.insert hX (fun X => rfl) (wasAsked_cons_of_not_asks rfl)
    cases lazy with
    | true => exact hlazy
    | false =>
      -- An eager registration is a lazy one and, in the same turn, the first to ask.
      rw [h.act_register_lazy hX] at hlazy
      rw [h.act_register_eager hX]
      have hasks : (Action.register label recipe source false).asks? past =
          some { fullName := recipe.fullName label, recipe, source } := by
        simp [Action.asks?, hX]
      refine hlazy.make ?_ ?_ (fun X => rfl) fun X => ?_
      · simp [registered?, Action.registers?, hX]
      · rw [wasAsked_cons_of_not_asks rfl]
        exact not_wasAsked_of_not_registered hX
      · rw [wasAsked_cons_of_asks hasks, wasAsked_cons_of_not_asks rfl]

theorem get (h : Recorded past s) (fullName : String) (type : ComponentType) :
    Recorded (.get fullName type :: past) (s.act (.get fullName type)).after := by
  rcases h.act_get fullName type with
    ⟨e, -, hasks, hact⟩ | ⟨slot, hX, hasks, ⟨hasked, hact⟩ | ⟨hasked, hact⟩⟩
  · rw [hact]
    exact h.cons_of_idle (fun X => rfl) hasks
  · rw [hact]
    refine h.cons_of_repeated (fun X => registered?_cons_of_not_registers rfl) fun X => ?_
    rw [wasAsked_cons_of_asks hasks]
    by_cases hname : slot.fullName = X
    · subst hname
      rw [hasked, Bool.true_or]
    · simp [hname]
  · rw [hact]
    exact h.make hX hasked (fun X => registered?_cons_of_not_registers rfl)
      (wasAsked_cons_of_asks hasks)

theorem act (h : Recorded past s) (a : Action) : Recorded (a :: past) (s.act a).after := by
  cases a with
  | register label recipe source lazy => exact h.register label recipe source lazy
  | get fullName type => exact h.get fullName type
  | trigger => exact (h.cons_of_idle (fun X => rfl) rfl).of_slots_eq (State.slots_trigger s)
  | wait ms => exact (h.cons_of_idle (fun X => rfl) rfl).of_slots_eq (State.slots_wait s ms)
  | _ => exact (h.cons_of_idle (fun X => rfl) rfl).of_slots_eq rfl

/-- **The record is kept over a whole session.** -/
theorem run (past : List Action) : Recorded past (Session.run past) := by
  induction past with
  | nil => exact .start
  | cons a past ih => exact ih.act a

end Recorded

end Chassis.Session
