import Chassis.Proofs.Session.Hooks

/-!
# Teardown mirrors construction

> **the first trigger destroys the components that were made and have a way to be destroyed, each
> once, with the value that everybody gets, in the reverse order of their making**
> (`teardown_mirrors_construction`).

Two logs are compared: the notes of makings and the notes of destructions. Both are read off `made`,
the first one backwards. A component that was made leaves one hook that destroys it, if it was made
with success and there is something to be done (`Slot.destroyed?`), and that hook takes its place
among the hooks that were added before and after the making. How a destruction ends is not part of
`Slot.destroyed?`: it makes no difference to the others.
-/

set_option autoImplicit false

namespace Chassis.Session

/-- The destruction that a note tells of. -/
def Note.destroyed? : Note → Option (String × Component)
  | .destroy fullName value => some (fullName, value)
  | _ => none

/-- The destruction that the making of a component leads to. -/
def Slot.destroyed? (slot : Slot) : Option (String × Component) :=
  match slot.result with
  | .error _ => none
  | .ok value => slot.recipe.onDestroy.map fun _ => (slot.fullName, value)

def Hook.destroyed? : Hook → Option (String × Component)
  | .destroy fullName value _ => some (fullName, value)
  | _ => none

theorem HookAction.filterMap_destroyed?_notes (action : HookAction) :
    action.notes.filterMap Note.destroyed? = [] := by
  refine List.filterMap_eq_nil_iff.2 fun note hnote => ?_
  rcases eq_of_mem_notes hnote with rfl | rfl <;> rfl

theorem filterMap_destroyed?_notes (hook : Hook) :
    hook.notes.filterMap Note.destroyed? = hook.destroyed?.toList := by
  cases hook with
  | plain name action => exact action.filterMap_destroyed?_notes
  | extra fullName action => exact action.filterMap_destroyed?_notes
  | destroy fullName value action =>
    exact congrArg (List.cons (fullName, value)) action.filterMap_destroyed?_notes
  | stopTicker name index => rfl

theorem filterMap_destroyed?_flatMap_notes (hooks : List Hook) :
    (hooks.flatMap Hook.notes).filterMap Note.destroyed? = hooks.filterMap Hook.destroyed? := by
  induction hooks with
  | nil => rfl
  | cons hook hooks ih =>
    rw [List.flatMap_cons, List.filterMap_append, ih, filterMap_destroyed?_notes,
      List.filterMap_cons]
    cases hook.destroyed? <;> rfl

/-- The hooks that a callback adds destroy nothing. -/
theorem filterMap_destroyed?_announce (fullName : String) (value : Component)
    (action : CreatedAction) :
    (State.announce fullName value action).2.1.filterMap Hook.destroyed? = [] := by
  induction action with
  | finish => rfl
  | panic => rfl
  | note rest ih => exact ih
  | addHook added rest ih => exact ih
  | probe rest ih =>
    have hprobe : (State.probeHooks fullName value).filterMap Hook.destroyed? = [] := by
      cases value with
      | client c =>
        simp only [State.probeHooks]
        split <;> rfl
      | _ => rfl
    simp only [State.announce, List.filterMap_append, hprobe, ih, List.append_nil]

theorem Slot.filterMap_destroyed?_announcement (slot : Slot) (value : Component) :
    (slot.announcement value).2.1.filterMap Hook.destroyed? = [] := by
  rw [announcement]
  cases slot.recipe.onCreated with
  | none => rfl
  | some action => exact filterMap_destroyed?_announce _ _ action

theorem Slot.filterMap_destroyed?_hooks (slot : Slot) :
    slot.hooks.filterMap Hook.destroyed? = slot.destroyed?.toList := by
  rw [hooks, destroyed?, result, Recipe.result]
  cases slot.recipe.create slot.source with
  | error reason => rfl
  | ok value =>
    simp only [List.filterMap_append, slot.filterMap_destroyed?_announcement, List.nil_append]
    cases slot.recipe.panics with
    | true => rfl
    | false =>
      simp only [Bool.false_eq_true, ↓reduceIte, destroyHook]
      cases slot.recipe.onDestroy <;> rfl

section Teardown

variable {past : List Action} {slot : Slot} {fullName : String} {value : Component}

theorem filterMap_destroyed?_hooks (past : List Action) (a : Action) :
    (a.hooks past).filterMap Hook.destroyed? =
      (a.makes? past).toList.filterMap Slot.destroyed? := by
  have hmade : ((a.makes? past).elim [] fun slot => slot.hooks.reverse).filterMap Hook.destroyed? =
      (a.makes? past).toList.filterMap Slot.destroyed? := by
    cases a.makes? past with
    | none => rfl
    | some slot =>
      have hslot := slot.filterMap_destroyed?_hooks
      simp only [Option.elim_some, List.filterMap_reverse, hslot, Option.toList_some,
        List.filterMap_cons]
      cases slot.destroyed? <;> rfl
  cases a with
  | register label recipe source lazy => exact hmade
  | get fullName type => exact hmade
  | _ => rfl

/-- **The hooks that destroy components are those of the components that were made**, in the same
order. -/
theorem filterMap_destroyed?_hooksAdded (past : List Action) :
    (hooksAdded past).filterMap Hook.destroyed? = (made past).filterMap Slot.destroyed? := by
  induction past with
  | nil => rfl
  | cons a past ih =>
    rw [hooksAdded, made, List.filterMap_append, List.filterMap_append, ih,
      filterMap_destroyed?_hooks]

theorem filterMap_destroyed?_trigger (h : wasTriggered past = false) :
    (turn past .trigger).notes.filterMap Note.destroyed? =
      (made past).filterMap Slot.destroyed? := by
  rw [notes_trigger, h, if_neg Bool.false_ne_true, filterMap_destroyed?_flatMap_notes,
    filterMap_destroyed?_hooksAdded]

theorem filterMap_destroyed?_filter (notes : List Note) :
    (notes.filter Note.isOfHook).filterMap Note.destroyed? = notes.filterMap Note.destroyed? := by
  rw [List.filterMap_filter]
  refine congrArg (fun f => notes.filterMap f) (funext fun note => ?_)
  cases note <;> rfl

theorem filterMap_destroyed?_log {before : List Action} (h : wasTriggered before = false)
    (later : List Action) :
    (log (later ++ .trigger :: before)).filterMap Note.destroyed? =
      (made before).filterMap Slot.destroyed? := by
  rw [← filterMap_destroyed?_filter, filter_isOfHook_log h, filterMap_destroyed?_flatMap_notes,
    filterMap_destroyed?_hooksAdded]

theorem destroyed?_eq_some_iff (slot : Slot) (fullName : String) (value : Component) :
    slot.destroyed? = some (fullName, value) ↔
      slot.fullName = fullName ∧ slot.result = .ok value ∧ slot.recipe.onDestroy.isSome = true := by
  rw [Slot.destroyed?]
  cases slot.result with
  | error reason => simp
  | ok made => cases slot.recipe.onDestroy <;> simp

theorem mem_destroyed_iff (past : List Action) (fullName : String) (value : Component) :
    (fullName, value) ∈ (made past).filterMap Slot.destroyed? ↔
      ∃ slot, registered? past fullName = some slot ∧ wasAsked past fullName = true ∧
        slot.result = .ok value ∧ slot.recipe.onDestroy.isSome = true := by
  rw [List.mem_filterMap]
  constructor
  · rintro ⟨slot, hmade, hslot⟩
    obtain ⟨rfl, hok, hdestroy⟩ := (destroyed?_eq_some_iff slot fullName value).1 hslot
    obtain ⟨hX, hasked⟩ := (mem_made_iff past slot).1 hmade
    exact ⟨slot, hX, hasked, hok, hdestroy⟩
  · rintro ⟨slot, hX, hasked, hok, hdestroy⟩
    obtain ⟨rfl, -⟩ := registered?_spec hX
    exact ⟨slot, (mem_made_iff past slot).2 ⟨hX, hasked⟩,
      (destroyed?_eq_some_iff slot _ value).2 ⟨rfl, hok, hdestroy⟩⟩

theorem nodup_destroyed (past : List Action) :
    (((made past).filterMap Slot.destroyed?).map Prod.fst).Nodup := by
  have hsub : ((made past).filterMap Slot.destroyed?).map Prod.fst =
      ((made past).filter fun slot => slot.destroyed?.isSome).map (·.fullName) := by
    induction made past with
    | nil => rfl
    | cons slot slots ih =>
      rw [List.filterMap_cons]
      cases hslot : slot.destroyed? with
      | none => simp [hslot, ih]
      | some d =>
        obtain ⟨name, value⟩ := d
        obtain ⟨rfl, -, -⟩ := (destroyed?_eq_some_iff slot name value).1 hslot
        simp [hslot, ih]
  rw [hsub]
  exact (nodup_made past).sublist ((List.filter_sublist).map _)

end Teardown

/-- **Teardown mirrors construction.** The first trigger destroys the components that were made with
success before it and have a way to be destroyed, each once and in the reverse order of their
making, in between the other hooks by the time when they were added. Nothing else is ever destroyed,
whatever is done later. What is destroyed is the value that the users of the component get. -/
theorem teardown_mirrors_construction (before later : List Action)
    (h : wasTriggered before = false) :
    let destroyed := (made before).filterMap Slot.destroyed?
    (turn before .trigger).notes.filterMap Note.destroyed? = destroyed ∧
    (log (later ++ .trigger :: before)).filterMap Note.destroyed? = destroyed ∧
    (log before).filter Note.isCreate = (made before).reverse.map Slot.createNote ∧
    (turn before .trigger).notes = (hooksAdded before).flatMap Hook.notes ∧
    (destroyed.map Prod.fst).Nodup ∧
    (∀ fullName value, (fullName, value) ∈ destroyed ↔
      ∃ slot, registered? before fullName = some slot ∧ wasAsked before fullName = true ∧
        slot.result = .ok value ∧ slot.recipe.onDestroy.isSome = true) ∧
    ∀ fullName value, (fullName, value) ∈ destroyed → ∃ type, ∀ more,
      (turn (more ++ before) (.get fullName type)).answer = .component (.ok value) := by
  intro destroyed
  refine ⟨filterMap_destroyed?_trigger h, filterMap_destroyed?_log h later,
    filter_isCreate_log before, ?_, nodup_destroyed before, mem_destroyed_iff before, ?_⟩
  · rw [notes_trigger, h, if_neg Bool.false_ne_true]
  · intro fullName value hmem
    obtain ⟨slot, hX, -, hok, -⟩ := (mem_destroyed_iff before fullName value).1 hmem
    refine ⟨slot.recipe.type, fun more => ?_⟩
    have hanswer := answer_get (more ++ before) fullName slot.recipe.type
    simp only [Action.answer?, registered?_append hX more, ↓reduceIte, hok] at hanswer
    exact Option.some.inj hanswer

/-- A recipe for a text, with what its destruction does. -/
def Recipe.ofText (name content : String) (onDestroy : HookAction) : Recipe where
  name
  type := .text
  create _ := .ok (.text content)
  onDestroy := some onDestroy

/-- Two components that are used in another order than they were registered in, and a hook that is
added between the two uses. -/
def crossed : List Action :=
  [.get "Cache (a)" .text, .addHook "flush" .fail, .get "Store (b)" .text,
    .register "b" (.ofText "Store" "s" .finish) (.empty "b") true,
    .register "a" (.ofText "Cache" "c" (.trigger .panic)) (.empty "a") true]

theorem teardown_mirrors_construction_crossed :
    wasTriggered crossed = false ∧
      (turn crossed .trigger).notes =
        [.destroy "Cache (a)" (.text "c"), .retrigger false, .hook "flush",
          .destroy "Store (b)" (.text "s")] := by
  refine ⟨rfl, ?_⟩
  obtain ⟨-, -, -, hnotes, -⟩ := teardown_mirrors_construction crossed [] rfl
  rw [hnotes]
  decide

end Chassis.Session
