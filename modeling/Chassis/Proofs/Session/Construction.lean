import Chassis.Proofs.Session.History

/-!
# Components are made once

> **a component is made by the first action that asks for it, and what came of it then is what
> every later action is told** (`made_once`).

The log of a session is compared with its history. A turn notes the making of the component that its
action is the first to ask for (`filter_isCreate_turn`), so the makings in the log are those of
`made`, in that order (`filter_isCreate_log`); and no name is in `made` twice, because there is but
one first action. What an action is answered depends on the first registration under the name and on
no action since then (`Action.answer?`), which is why nothing that happens in between can change it.
-/

set_option autoImplicit false

namespace Chassis.Session

/-! ## Notes -/

def Note.isCreate : Note → Bool
  | .create _ _ _ => true
  | _ => false

def Note.isCreateOf (fullName : String) : Note → Bool
  | .create name _ _ => name == fullName
  | _ => false

/-- The note of a hook that ran at shutdown. -/
def Note.isOfHook : Note → Bool
  | .create _ _ _ => false
  | .created _ _ => false
  | _ => true

/-- All that a hook can leave besides its own note is what the shutdown told it. -/
theorem HookAction.eq_of_mem_notes {action : HookAction} {note : Note} (h : note ∈ action.notes) :
    note = .retrigger false ∨ note = .triggered true := by
  induction action with
  | finish => cases h
  | fail => cases h
  | panic => cases h
  | addHook name added rest _ ih => exact ih h
  | trigger rest ih =>
    rcases List.mem_cons.1 h with hnote | hnote
    · exact .inl hnote
    · exact ih hnote
  | tellTriggered rest ih =>
    rcases List.mem_cons.1 h with hnote | hnote
    · exact .inr hnote
    · exact ih hnote

theorem isOfHook_of_mem_cons_notes {first note : Note} {action : HookAction}
    (hfirst : first.isOfHook = true) (h : note ∈ first :: action.notes) :
    note.isOfHook = true := by
  rcases List.mem_cons.1 h with rfl | hrest
  · exact hfirst
  · rcases HookAction.eq_of_mem_notes hrest with rfl | rfl <;> rfl

theorem isOfHook_of_mem_notes {hook : Hook} {note : Note} (h : note ∈ hook.notes) :
    note.isOfHook = true := by
  cases hook with
  | plain name action => exact isOfHook_of_mem_cons_notes rfl h
  | extra fullName action => exact isOfHook_of_mem_cons_notes rfl h
  | destroy fullName value action => exact isOfHook_of_mem_cons_notes rfl h
  | stopTicker name index => cases h

namespace Slot

/-- Once a component was made all that is left to note is that it was. -/
theorem eq_created_of_mem_announce {fullName : String} {value : Component}
    {action : CreatedAction} {note : Note}
    (h : note ∈ (State.announce fullName value action).1) : note = .created fullName value := by
  induction action with
  | finish => cases h
  | panic => cases h
  | note rest ih =>
    rcases List.mem_cons.1 h with hnote | hnote
    · exact hnote
    · exact ih hnote
  | addHook added rest ih => exact ih h
  | probe rest ih => exact ih h

theorem eq_created_of_mem_announcement {slot : Slot} {value : Component} {note : Note}
    (h : note ∈ (slot.announcement value).1) : note = .created slot.fullName value := by
  rw [announcement] at h
  cases haction : slot.recipe.onCreated with
  | none =>
    rw [haction] at h
    cases h
  | some action =>
    rw [haction] at h
    exact eq_created_of_mem_announce h

theorem notes_spec (slot : Slot) :
    ∃ more, slot.notes = slot.createNote :: more ∧
      ∀ note ∈ more, note.isCreate = false ∧ note.isOfHook = false := by
  refine ⟨_, rfl, fun note hnote => ?_⟩
  split at hnote
  · cases hnote
  · rw [eq_created_of_mem_announcement hnote]
    exact ⟨rfl, rfl⟩

theorem filter_isCreate_notes (slot : Slot) :
    slot.notes.filter Note.isCreate = [slot.createNote] := by
  obtain ⟨more, hnotes, hmore⟩ := slot.notes_spec
  have hnone : more.filter Note.isCreate = [] :=
    List.filter_eq_nil_iff.2 fun note hnote => by simp [(hmore note hnote).1]
  rw [hnotes, List.filter_cons_of_pos rfl, hnone]

theorem filter_isOfHook_notes (slot : Slot) : slot.notes.filter Note.isOfHook = [] := by
  obtain ⟨more, hnotes, hmore⟩ := slot.notes_spec
  rw [hnotes]
  refine List.filter_eq_nil_iff.2 fun note hnote => ?_
  rcases List.mem_cons.1 hnote with rfl | hnote
  · exact Bool.false_ne_true
  · simp [(hmore note hnote).2]

end Slot

/-! ## Turns by what they make -/

section Turns

variable {past : List Action} {a : Action} {slot : Slot}

theorem turn_of_makes (h : a.makes? past = some slot) :
    (turn past a).notes = slot.notes ∧
      (turn past a).after.shutdown = slot.hooks.foldl (·.addHook ·) (run past).shutdown := by
  obtain ⟨hasks, hasked⟩ := makes?_eq_some_iff.1 h
  have hrec := Recorded.run past
  cases a with
  | register label recipe source lazy =>
    cases lazy with
    | true => cases hasks
    | false =>
      simp only [Action.asks?] at hasks
      split at hasks
      · cases hasks
      case h_2 hX =>
        obtain rfl := Option.some.inj hasks
        rw [turn, hrec.act_register_eager hX]
        exact ⟨rfl, rfl⟩
  | get fullName type =>
    obtain ⟨hX, htype⟩ := Option.filter_eq_some_iff.1 hasks
    obtain rfl := of_decide_eq_true htype
    obtain ⟨rfl, -⟩ := registered?_spec hX
    rw [turn, hrec.act_get_first hX hasked]
    exact ⟨rfl, rfl⟩
  | _ => cases hasks

/-- An action on the registry that makes nothing runs no callback, and adds no hook. -/
theorem turn_of_not_makes (h : a.makes? past = none)
    (hreg : (∃ label recipe source lazy, a = .register label recipe source lazy) ∨
      ∃ fullName type, a = .get fullName type) :
    (turn past a).notes = [] ∧ (turn past a).after.shutdown = (run past).shutdown := by
  have hrec := Recorded.run past
  rcases hreg with ⟨label, recipe, source, lazy, rfl⟩ | ⟨fullName, type, rfl⟩
  · cases hX : registered? past (recipe.fullName label) with
    | some slot =>
      rw [turn, hrec.act_register_taken hX]
      exact ⟨rfl, rfl⟩
    | none =>
      cases lazy with
      | true =>
        rw [turn, hrec.act_register_lazy hX]
        exact ⟨rfl, rfl⟩
      | false =>
        simp [Action.makes?, Action.asks?, hX, not_wasAsked_of_not_registered hX] at h
  · rcases hrec.act_get fullName type with
      ⟨e, -, -, hact⟩ | ⟨slot, -, hasks, ⟨-, hact⟩ | ⟨hasked, -⟩⟩
    · rw [turn, hact]
      exact ⟨rfl, rfl⟩
    · rw [turn, hact]
      exact ⟨rfl, rfl⟩
    · rw [makes?_eq_some_iff.2 ⟨hasks, hasked⟩] at h
      cases h

/-- Only a trigger leaves other notes than those of a making. -/
theorem notes_turn (past : List Action) (a : Action) :
    a = .trigger ∨ (turn past a).notes = (a.makes? past).elim [] Slot.notes := by
  cases hmakes : a.makes? past with
  | some slot => exact .inr (turn_of_makes hmakes).1
  | none =>
    cases a with
    | trigger => exact .inl rfl
    | register label recipe source lazy =>
      exact .inr (turn_of_not_makes hmakes (.inl ⟨label, recipe, source, lazy, rfl⟩)).1
    | get fullName type =>
      exact .inr (turn_of_not_makes hmakes (.inr ⟨fullName, type, rfl⟩)).1
    | _ => exact .inr rfl

theorem isOfHook_of_mem_notes_trigger {note : Note} (h : note ∈ (turn past .trigger).notes) :
    note.isOfHook = true := by
  have htrigger : (turn past .trigger).notes = (run past).trigger.2.2 := rfl
  rw [htrigger] at h
  cases htriggered : (run past).shutdown.triggered with
  | true =>
    rw [State.trigger_of_triggered htriggered] at h
    cases h
  | false =>
    rw [State.trigger_of_not_triggered htriggered] at h
    obtain ⟨hook, -, hnote⟩ := List.mem_flatMap.1 h
    exact isOfHook_of_mem_notes hnote

theorem not_isCreate_of_isOfHook {note : Note} (h : note.isOfHook = true) :
    note.isCreate = false := by
  cases note <;> first | rfl | cases h

/-- **A turn notes the making of the component that it makes**, and of no other. -/
theorem filter_isCreate_turn (past : List Action) (a : Action) :
    (turn past a).notes.filter Note.isCreate = (a.makes? past).toList.map Slot.createNote := by
  rcases notes_turn past a with rfl | hnotes
  · have hnone : (turn past .trigger).notes.filter Note.isCreate = [] := by
      refine List.filter_eq_nil_iff.2 fun note hnote => ?_
      rw [not_isCreate_of_isOfHook (isOfHook_of_mem_notes_trigger hnote)]
      exact Bool.false_ne_true
    exact hnone
  · rw [hnotes]
    cases a.makes? past with
    | none => rfl
    | some slot => exact slot.filter_isCreate_notes

theorem filter_isCreate_log (past : List Action) :
    (log past).filter Note.isCreate = (made past).reverse.map Slot.createNote := by
  induction past with
  | nil => rfl
  | cons a past ih =>
    rw [log, List.filter_append, ih, filter_isCreate_turn, made, List.reverse_append,
      List.map_append]
    cases a.makes? past <;> rfl

/-! ## The components that were made -/

theorem mem_made_iff (past : List Action) (slot : Slot) :
    slot ∈ made past ↔
      registered? past slot.fullName = some slot ∧ wasAsked past slot.fullName = true := by
  induction past with
  | nil => simp [made, wasAsked]
  | cons a past ih =>
    rw [made, List.mem_append, Option.mem_toList, ih, makes?_eq_some_iff]
    constructor
    · rintro (⟨hasks, -⟩ | ⟨hX, hasked⟩)
      · exact ⟨registered?_of_asks? hasks, by simp [wasAsked_cons_of_asks hasks]⟩
      · exact ⟨registered?_cons_of_some hX a, by simp [wasAsked, hasked]⟩
    · rintro ⟨hX, hasked⟩
      -- Either somebody asked for it before, or `a` is the first to ask.
      cases hbefore : wasAsked past slot.fullName with
      | true =>
        obtain ⟨other, hother⟩ := registered?_of_wasAsked hbefore
        obtain rfl : other = slot :=
          Option.some.inj ((registered?_cons_of_some hother a).symm.trans hX)
        exact .inr ⟨hother, rfl⟩
      | false =>
        cases hasks : a.asks? past with
        | none =>
          rw [wasAsked_cons_of_not_asks hasks, hbefore] at hasked
          cases hasked
        | some other =>
          rw [wasAsked_cons_of_asks hasks, hbefore, Bool.false_or, beq_iff_eq] at hasked
          obtain rfl : other = slot :=
            Option.some.inj ((registered?_of_asks? hasks).symm.trans (hasked ▸ hX))
          exact .inl ⟨rfl, rfl⟩

theorem nodup_made (past : List Action) : ((made past).map (·.fullName)).Nodup := by
  induction past with
  | nil => exact List.nodup_nil
  | cons a past ih =>
    rw [made]
    cases hmakes : a.makes? past with
    | none => exact ih
    | some slot =>
      refine List.nodup_cons.2 ⟨fun hmem => ?_, ih⟩
      obtain ⟨other, hother, hname⟩ := List.mem_map.1 hmem
      have hasked := ((mem_made_iff past other).1 hother).2
      rw [hname, (makes?_eq_some_iff.1 hmakes).2] at hasked
      cases hasked

theorem mem_fullNames_made_iff (past : List Action) (fullName : String) :
    fullName ∈ (made past).map (·.fullName) ↔ wasAsked past fullName = true := by
  constructor
  · intro hmem
    obtain ⟨slot, hslot, rfl⟩ := List.mem_map.1 hmem
    exact ((mem_made_iff past slot).1 hslot).2
  · intro hasked
    obtain ⟨slot, hX⟩ := registered?_of_wasAsked hasked
    obtain ⟨rfl, -⟩ := registered?_spec hX
    exact List.mem_map.2 ⟨slot, (mem_made_iff past slot).2 ⟨hX, hasked⟩, rfl⟩

theorem countP_isCreateOf_log (past : List Action) (fullName : String) :
    (log past).countP (Note.isCreateOf fullName) = if wasAsked past fullName then 1 else 0 := by
  have hnotes : (log past).countP (Note.isCreateOf fullName) =
      ((log past).filter Note.isCreate).countP (Note.isCreateOf fullName) := by
    rw [List.countP_filter]
    refine List.countP_congr fun note _ => ?_
    cases note <;> simp [Note.isCreateOf, Note.isCreate]
  have hslots : (log past).countP (Note.isCreateOf fullName) =
      ((made past).map (·.fullName)).count fullName := by
    rw [hnotes, filter_isCreate_log, List.countP_map, List.countP_reverse, List.count,
      List.countP_map]
    rfl
  rw [hslots, (nodup_made past).count]
  simp only [mem_fullNames_made_iff]

end Turns

/-! ## Answers -/

/-- What an action on the registry is answered, by the history: the first registration under a name
decides, and a failure to make a component is a failure of all that use it. -/
def Action.answer? (past : List Action) : Action → Option Answer
  | .register label recipe source lazy =>
    let fullName := recipe.fullName label
    some (.accessor (match registered? past fullName with
      | some _ => .error (.duplicate fullName)
      | none =>
        if lazy then .ok (fullName, false)
        else match recipe.result source with
          | .ok _ => .ok (fullName, true)
          | .error reason => .error (.construction fullName reason)))
  | .provider fullName type =>
    some (.accessor (match registered? past fullName with
      | none => .error (.unknown fullName)
      | some slot =>
        if slot.recipe.type = type then .ok (fullName, wasAsked past fullName)
        else .error (.typeMismatch fullName type)))
  | .get fullName type =>
    some (.component (match registered? past fullName with
      | none => .error (.unknown fullName)
      | some slot =>
        if slot.recipe.type = type then
          match slot.result with
          | .ok value => .ok value
          | .error reason => .error (.construction fullName reason)
        else .error (.typeMismatch fullName type)))
  | _ => none

/-- The registry would not do what it was told. A component that cannot be made is another matter:
that is what came of it. -/
def Answer.isRefusal : Answer → Bool
  | .accessor (.error e) => !e.isFatal
  | .component (.error e) => !e.isFatal
  | _ => false

section Answers

variable {past : List Action} {fullName : String}

theorem answer_register (past : List Action) (label : String) (recipe : Recipe) (source : Source)
    (lazy : Bool) :
    some (turn past (.register label recipe source lazy)).answer =
      (Action.register label recipe source lazy).answer? past := by
  have hrec := Recorded.run past
  rw [turn, Action.answer?]
  cases hX : registered? past (recipe.fullName label) with
  | some slot => rw [hrec.act_register_taken hX]
  | none =>
    cases lazy with
    | true => rw [hrec.act_register_lazy hX, if_pos rfl]
    | false =>
      rw [hrec.act_register_eager hX]
      simp only [Slot.result, Bool.false_eq_true, ↓reduceIte]
      cases recipe.result source <;> rfl

theorem answer_provider (past : List Action) (fullName : String) (type : ComponentType) :
    some (turn past (.provider fullName type)).answer =
      (Action.provider fullName type).answer? past := by
  have hrec := Recorded.run past
  have hinit := hrec.isInitialized_eq fullName
  simp only [turn, State.act, Action.answer?, State.accessor]
  cases hX : registered? past fullName with
  | none =>
    rw [hrec.slot?_of_not_registered hX]
    rfl
  | some slot =>
    obtain ⟨outcome, hslot⟩ := hrec.exists_slot? hX
    obtain ⟨rfl, -⟩ := registered?_spec hX
    rw [hslot]
    by_cases htype : slot.recipe.type = type
    · simp only [htype, ↓reduceIte, Except.map, hinit]
    · simp only [htype, ↓reduceIte, Except.map]

theorem answer_get (past : List Action) (fullName : String) (type : ComponentType) :
    some (turn past (.get fullName type)).answer = (Action.get fullName type).answer? past := by
  have hrec := Recorded.run past
  rw [turn, Action.answer?]
  cases hX : registered? past fullName with
  | none => rw [hrec.act_get_unknown hX]
  | some slot =>
    by_cases htype : slot.recipe.type = type
    · subst htype
      have htold : (turn past (.get fullName slot.recipe.type)).answer =
          .component (State.outcomeOf fullName slot.result) := by
        cases hasked : wasAsked past fullName with
        | true => rw [turn, hrec.act_get_made hX hasked]
        | false => rw [turn, hrec.act_get_first hX hasked]
      rw [turn] at htold
      rw [htold]
      simp only [↓reduceIte]
      cases slot.result <;> rfl
    · rw [hrec.act_get_mismatch hX htype]
      simp only [htype, ↓reduceIte]

theorem answer_of_answer? {a : Action} {answer : Answer} (h : answer ∈ a.answer? past) :
    (turn past a).answer = answer := by
  cases a with
  | register label recipe source lazy =>
    exact Option.some.inj ((answer_register past label recipe source lazy).trans h)
  | provider name type => exact Option.some.inj ((answer_provider past name type).trans h)
  | get name type => exact Option.some.inj ((answer_get past name type).trans h)
  | _ => cases h

/-- An answer that is no refusal tells what came of the component. -/
theorem registered?_of_answer_get {type : ComponentType}
    {result : Except RegistryError Component}
    (h : (turn past (.get fullName type)).answer = .component result)
    (hrefusal : (Answer.component result).isRefusal = false) :
    ∃ slot, registered? past fullName = some slot ∧ slot.recipe.type = type := by
  have hanswer := answer_get past fullName type
  rw [h, Action.answer?] at hanswer
  cases hX : registered? past fullName with
  | none =>
    rw [hX] at hanswer
    cases hanswer
    cases hrefusal
  | some slot =>
    rw [hX] at hanswer
    by_cases htype : slot.recipe.type = type
    · exact ⟨slot, rfl, htype⟩
    · simp only [htype, ↓reduceIte] at hanswer
      cases hanswer
      cases hrefusal

/-- **What came of a component is what it stays**, whatever is done in between. -/
theorem answer_get_append {type : ComponentType} {result : Except RegistryError Component}
    (h : (turn past (.get fullName type)).answer = .component result)
    (hrefusal : (Answer.component result).isRefusal = false) (later : List Action) :
    (turn (later ++ past) (.get fullName type)).answer = .component result := by
  obtain ⟨slot, hX, htype⟩ := registered?_of_answer_get h hrefusal
  have hbefore := answer_get past fullName type
  have hafter := answer_get (later ++ past) fullName type
  rw [Action.answer?, hX] at hbefore
  rw [Action.answer?, registered?_append hX later] at hafter
  exact Option.some.inj (hafter.trans (hbefore.symm.trans (congrArg some h)))

theorem not_isRefusal_outcomeOf (fullName : String) (outcome : Except String Component) :
    (Answer.component (State.outcomeOf fullName outcome)).isRefusal = false := by
  cases outcome <;> rfl

theorem not_isRefusal_accessor (fullName : String) (outcome : Except String Component)
    (accessor : String × Bool) :
    (Answer.accessor ((State.outcomeOf fullName outcome).map fun _ => accessor)).isRefusal =
      false := by
  cases outcome <;> rfl

/-- **What is refused changes nothing**, and no callback runs. -/
theorem turn_of_isRefusal {a : Action} (h : (turn past a).answer.isRefusal = true) :
    (turn past a).after = run past ∧ (turn past a).notes = [] := by
  have hrec := Recorded.run past
  cases a with
  | register label recipe source lazy =>
    cases hX : registered? past (recipe.fullName label) with
    | some slot =>
      rw [turn, hrec.act_register_taken hX]
      exact ⟨rfl, rfl⟩
    | none =>
      cases lazy with
      | true =>
        rw [turn, hrec.act_register_lazy hX] at h
        cases h
      | false =>
        rw [turn, hrec.act_register_eager hX, not_isRefusal_accessor] at h
        cases h
  | provider name type => exact ⟨rfl, rfl⟩
  | get name type =>
    rcases hrec.act_get name type with ⟨e, -, -, hact⟩ | ⟨slot, -, -, ⟨-, hact⟩ | ⟨-, hact⟩⟩
    · rw [turn, hact]
      exact ⟨rfl, rfl⟩
    · rw [turn, hact]
      exact ⟨rfl, rfl⟩
    · rw [turn, hact, not_isRefusal_outcomeOf] at h
      cases h
  | _ => cases h

/-- **A slot keeps what came of its component**, whatever is done in between. -/
theorem slot?_run_append {slot : Slot} (hslot : (run past).slot? fullName = some slot)
    (hmade : slot.outcome.isSome = true) (later : List Action) :
    (run (later ++ past)).slot? fullName = some slot := by
  rw [(Recorded.run past).slot?_eq, current?] at hslot
  obtain ⟨first, hX, rfl⟩ := Option.map_eq_some_iff.1 hslot
  cases hasked : wasAsked past fullName with
  | false =>
    rw [hasked] at hmade
    simp [(registered?_spec hX).2] at hmade
  | true =>
    rw [(Recorded.run (later ++ past)).slot?_of_asked (registered?_append hX later)
      (wasAsked_append hasked later)]
    rfl

end Answers

/-! ## Names -/

theorem pairwise_names {s : State} (h : (s.slots.map (·.fullName)).Nodup) :
    s.names.Pairwise (· < ·) := by
  have hsorted : s.names.Pairwise fun a b => decide (a ≤ b) = true :=
    List.pairwise_mergeSort (fun a b c hab hbc => by
        simp only [decide_eq_true_eq] at *
        exact String.le_trans hab hbc)
      (fun a b => by simpa using String.le_total a b) _
  have hdistinct : s.names.Nodup := (List.mergeSort_perm _ _).nodup_iff.2 h
  refine (hsorted.and hdistinct).imp fun hab => ?_
  obtain ⟨hle, hne⟩ := hab
  refine Decidable.byContradiction fun hlt => hne ?_
  exact String.le_antisymm (of_decide_eq_true hle) (String.not_lt.1 hlt)

theorem mem_names_iff (past : List Action) (fullName : String) :
    fullName ∈ (run past).names ↔ (registered? past fullName).isSome = true := by
  rw [State.names, List.mem_mergeSort, State.mem_fullNames_iff, (Recorded.run past).slot?_eq,
    current?, Option.isSome_map]

/-! ## What the registry promises -/

/-- **Components are made once, and what came of them stays.** For every session:

* the log has one note of the making of a component that anybody asked for and none of another, and
  the note is in the turn of the first action that asks;
* a component is initialized from then on, and its slot keeps what came of it;
* the registry answers by the history alone: the value that came of a component, or the failure;
* who was told a value is told it again, and who was told a failure that the service cannot do
  without is told it again, whatever is done in between;
* what is refused leaves everything as it was, and no callback runs;
* the names are those that were registered, each once, in ascending order. -/
theorem made_once (past : List Action) :
    (∀ fullName, (log past).countP (Note.isCreateOf fullName) =
      if wasAsked past fullName then 1 else 0) ∧
    (∀ a, (turn past a).notes.filter Note.isCreate =
      (a.makes? past).toList.map Slot.createNote) ∧
    (∀ fullName, (run past).isInitialized fullName = wasAsked past fullName) ∧
    (∀ fullName slot, (run past).slot? fullName = some slot → slot.outcome.isSome = true →
      ∀ later, (run (later ++ past)).slot? fullName = some slot) ∧
    (∀ a, ∀ answer ∈ a.answer? past, (turn past a).answer = answer) ∧
    (∀ fullName type value, (turn past (.get fullName type)).answer = .component (.ok value) →
      ∀ later, (turn (later ++ past) (.get fullName type)).answer = .component (.ok value)) ∧
    (∀ fullName type e, (turn past (.get fullName type)).answer = .component (.error e) →
      e.isFatal = true →
      ∀ later, (turn (later ++ past) (.get fullName type)).answer = .component (.error e)) ∧
    (∀ a, (turn past a).answer.isRefusal = true →
      (turn past a).after = run past ∧ (turn past a).notes = []) ∧
    ∃ names, (turn past .names).answer = .texts names ∧ names.Pairwise (· < ·) ∧
      ∀ fullName, fullName ∈ names ↔ (registered? past fullName).isSome = true :=
  ⟨countP_isCreateOf_log past, filter_isCreate_turn past, (Recorded.run past).isInitialized_eq,
    fun _ _ hslot hmade later => slot?_run_append hslot hmade later,
    fun _ _ h => answer_of_answer? h, fun _ _ _ h later => answer_get_append h rfl later,
    fun _ _ _ h hfatal later => answer_get_append h (by rw [Answer.isRefusal, hfatal]; rfl) later,
    fun _ h => turn_of_isRefusal h, _, rfl, pairwise_names (Recorded.run past).nodup,
    mem_names_iff past⟩

/-- A recipe for a text, with what its callback does when it is told. -/
def Recipe.announced (name content : String) (onCreated : CreatedAction) : Recipe where
  name
  type := .text
  create _ := .ok (.text content)
  onCreated := some onCreated

/-- A component whose callback adds a hook and panics then is asked for by the wrong type, by a name
that nobody knows, and by its own type; another one is made when it is registered. Later both are
registered again, shutdown is triggered, and they are asked for once more. -/
theorem made_once_announced_in_vain :
    let registerDb : Action := .register "main"
      (.announced "Db" "db" (.note (.addHook .finish .panic))) (.empty "main") true
    let registerCache : Action := .register "a" (.announced "Cache" "c" .finish) (.empty "a") false
    let getDb : Action := .get "Db (main)" .text
    let getCache : Action := .get "Cache (a)" .text
    let past : List Action := [getDb, .get "Db (b)" .text, .get "Db (main)" .number, registerCache,
      registerDb]
    let later : List Action := [getCache, getDb, .trigger, registerCache, registerDb]
    let failure : RegistryError := .construction "Db (main)" "on_created hook panicked"
    (log (later ++ past)).countP (Note.isCreateOf "Db (main)") = 1 ∧
      failure.isFatal = true ∧ (turn past getDb).answer = .component (.error failure) ∧
      (turn (later ++ past) getDb).answer = .component (.error failure) ∧
      (turn past getCache).answer = .component (.ok (.text "c")) ∧
      (turn (later ++ past) getCache).answer = .component (.ok (.text "c")) ∧
      (turn past registerDb).answer = .accessor (.error (.duplicate "Db (main)")) ∧
      (turn past registerDb).after = run past ∧
      (run past).isInitialized "Db (main)" = true := by
  intro registerDb registerCache getDb getCache past later failure
  obtain ⟨-, -, hinit, -, hanswer, hvalue, hfailure, hrefused, -⟩ := made_once past
  have hfailed : (turn past getDb).answer = .component (.error failure) := hanswer getDb _ rfl
  have hmade : (turn past getCache).answer = .component (.ok (.text "c")) :=
    hanswer getCache _ rfl
  have htaken := hanswer registerDb _ rfl
  have hunchanged := hrefused registerDb (by rw [htaken]; rfl)
  exact ⟨(made_once (later ++ past)).1 "Db (main)", rfl, hfailed,
    hfailure "Db (main)" .text failure hfailed rfl later, hmade,
    hvalue "Cache (a)" .text (.text "c") hmade later, htaken, hunchanged.1, hinit "Db (main)"⟩

end Chassis.Session
