import Chassis.Proofs.Endpoint.Stopping
import Chassis.Session.Action

/-!
# What each operation on a session does

One lemma for each operation of `State`, so that proofs about sessions never look inside one.

Making a component comes down to three things that depend on its slot alone: what comes of it
(`Slot.result`), the hooks it adds (`Slot.hooks`) and the notes it leaves (`Slot.notes`). The state
it is made in only takes the hooks. Running hooks under a shutdown that was triggered comes down to
the notes of each hook (`Hook.notes`), because whatever a hook does to the shutdown from within is
in vain by then; all it can change are the tickers.
-/

set_option autoImplicit false

namespace Chassis.Session

/-! ## Making a component -/

/-- Whether a callback that is told of a component ends in a panic. -/
def CreatedAction.panics : CreatedAction → Bool
  | .finish => false
  | .panic => true
  | .note rest | .addHook _ rest | .probe rest => rest.panics

def Recipe.panics (r : Recipe) : Bool := r.onCreated.any CreatedAction.panics

/-- What comes of a recipe. A panic after the making counts as a failure of it. -/
def Recipe.result (r : Recipe) (source : Source) : Except String Component :=
  match r.create source with
  | .error reason => .error reason
  | .ok value => if r.panics then .error "on_created hook panicked" else .ok value

theorem State.announce_panics (fullName : String) (value : Component) (action : CreatedAction) :
    (announce fullName value action).2.2 = action.panics := by
  induction action with
  | finish => rfl
  | panic => rfl
  | note rest ih => exact ih
  | addHook added rest ih => exact ih
  | probe rest ih => exact ih

namespace Slot

def result (slot : Slot) : Except String Component := slot.recipe.result slot.source

def createNote (slot : Slot) : Note :=
  .create slot.fullName slot.source.name slot.recipe.isNoted

/-- The notes and the hooks of the callback that is told of the component. -/
def announcement (slot : Slot) (value : Component) : List Note × List Hook × Bool :=
  slot.recipe.onCreated.elim ([], [], false) (State.announce slot.fullName value)

def notes (slot : Slot) : List Note :=
  slot.createNote ::
    match slot.recipe.create slot.source with
    | .error _ => []
    | .ok value => (slot.announcement value).1

/-- The hook that destroys a component, if there is something to be done. -/
def destroyHook (slot : Slot) (value : Component) : List Hook :=
  slot.recipe.onDestroy.toList.map (.destroy slot.fullName value)

/-- The hooks that the making adds, the earliest first. Those of a callback stay when it panics. -/
def hooks (slot : Slot) : List Hook :=
  match slot.recipe.create slot.source with
  | .error _ => []
  | .ok value =>
    (slot.announcement value).2.1 ++ if slot.recipe.panics then [] else slot.destroyHook value

theorem announcement_panics (slot : Slot) (value : Component) :
    (slot.announcement value).2.2 = slot.recipe.panics := by
  rw [Slot.announcement, Recipe.panics]
  cases slot.recipe.onCreated with
  | none => rfl
  | some action => exact State.announce_panics _ _ action

end Slot

namespace State

variable {s : State} {slot : Slot} {fullName : String}

theorem foldl_addHook (hooks : List Hook) (s : State) :
    hooks.foldl addHook s = { s with shutdown := hooks.foldl (·.addHook ·) s.shutdown } := by
  induction hooks generalizing s with
  | nil => rfl
  | cons hook hooks ih =>
    rw [List.foldl_cons, ih]
    rfl

/-- **Making a component** takes nothing from the state, and gives it the hooks. -/
theorem construct_eq (s : State) (slot : Slot) :
    s.construct slot =
      ({ s with shutdown := slot.hooks.foldl (·.addHook ·) s.shutdown }, slot.result,
        slot.notes) := by
  rw [Slot.hooks, Slot.result, Recipe.result, Slot.notes]
  cases hcreate : slot.recipe.create slot.source with
  | error reason => simp only [construct, hcreate, Slot.createNote, List.foldl_nil]
  | ok value =>
    have hpanics := slot.announcement_panics value
    rw [Slot.announcement] at hpanics
    simp only [construct, hcreate, Slot.announcement, hpanics, Slot.createNote, Slot.destroyHook,
      foldl_addHook]
    cases slot.recipe.panics with
    | true => simp
    | false =>
      cases slot.recipe.onDestroy with
      | none => simp
      | some action => simp [addHook]

def afterMaking (s : State) (slot : Slot) : State :=
  { s with shutdown := slot.hooks.foldl (·.addHook ·) s.shutdown }.settle slot.fullName
    slot.result

theorem use_of_made {outcome : Except String Component} (h : slot.outcome = some outcome) :
    s.use slot = (s, outcomeOf slot.fullName outcome, []) := by
  rw [use, h]

theorem use_of_not_made (h : slot.outcome = none) :
    s.use slot = (s.afterMaking slot, outcomeOf slot.fullName slot.result, slot.notes) := by
  rw [use, h]
  simp only [construct_eq]
  rfl

/-! ## Slots -/

theorem fullName_of_slot? (h : s.slot? fullName = some slot) : slot.fullName = fullName := by
  have hfound := List.find?_some (p := fun slot : Slot => slot.fullName == fullName) h
  exact beq_iff_eq.1 hfound

theorem slot?_insert (h : s.slot? slot.fullName = none) (name : String) :
    { s with slots := s.slots ++ [slot] }.slot? name =
      if name = slot.fullName then some slot else s.slot? name := by
  have happend : { s with slots := s.slots ++ [slot] }.slot? name =
      (s.slot? name).or ([slot].find? (·.fullName == name)) := List.find?_append
  rw [happend]
  by_cases hname : name = slot.fullName
  · subst hname
    simp [h]
  · simp [hname, Ne.symm hname]

theorem slot?_settle (s : State) (fullName : String) (outcome : Except String Component)
    (name : String) :
    (s.settle fullName outcome).slot? name =
      (s.slot? name).map fun slot =>
        if name = fullName then { slot with outcome := some outcome } else slot := by
  let f (slot : Slot) : Slot :=
    if slot.fullName = fullName then { slot with outcome := some outcome } else slot
  -- `f` keeps the names, so it finds and changes the slot in either order.
  have hname :
      (fun slot => (f slot).fullName == name) = fun slot : Slot => slot.fullName == name := by
    funext slot
    simp only [f]
    split <;> rfl
  have hmap : (s.settle fullName outcome).slot? name = (s.slot? name).map f := by
    simp only [slot?, settle, List.find?_map, Function.comp_def]
    exact congrArg (fun p => (s.slots.find? p).map f) hname
  rw [hmap]
  cases hslot : s.slot? name with
  | none => rfl
  | some slot =>
    have hfull := fullName_of_slot? hslot
    simp only [Option.map_some, f, hfull]

theorem fullNames_settle (s : State) (fullName : String) (outcome : Except String Component) :
    (s.settle fullName outcome).slots.map (·.fullName) = s.slots.map (·.fullName) := by
  simp only [settle, List.map_map]
  refine List.map_congr_left fun slot _ => ?_
  simp only [Function.comp_apply]
  split <;> rfl

theorem slot?_afterMaking (s : State) (slot : Slot) (name : String) :
    (s.afterMaking slot).slot? name =
      (s.slot? name).map fun other =>
        if name = slot.fullName then { other with outcome := some slot.result } else other :=
  slot?_settle _ _ _ _

theorem fullNames_afterMaking (s : State) (slot : Slot) :
    (s.afterMaking slot).slots.map (·.fullName) = s.slots.map (·.fullName) :=
  fullNames_settle _ _ _

theorem mem_fullNames_iff (s : State) (name : String) :
    name ∈ s.slots.map (·.fullName) ↔ (s.slot? name).isSome := by
  rw [slot?, List.find?_isSome, List.mem_map]
  simp only [beq_iff_eq]

/-! ## Registering and getting -/

theorem register_of_taken {recipe : Recipe} {label : String}
    (h : s.slot? (recipe.fullName label) = some slot) (source : Source) (lazy : Bool) :
    s.register label recipe source lazy =
      (s, .error (.duplicate (recipe.fullName label)), []) := by
  simp only [register, h]

theorem register_lazy {recipe : Recipe} {label : String}
    (h : s.slot? (recipe.fullName label) = none) (source : Source) :
    s.register label recipe source true =
      ({ s with slots := s.slots ++ [{ fullName := recipe.fullName label, recipe, source }] },
        .ok (recipe.fullName label), []) := by
  simp only [register, h, ↓reduceIte]

theorem register_eager {recipe : Recipe} {label : String}
    (h : s.slot? (recipe.fullName label) = none) (source : Source) :
    let slot : Slot := { fullName := recipe.fullName label, recipe, source }
    s.register label recipe source false =
      ({ s with slots := s.slots ++ [slot] }.afterMaking slot,
        (outcomeOf slot.fullName slot.result).map fun _ => slot.fullName, slot.notes) := by
  intro slot
  simp only [register, h, Bool.false_eq_true, ↓reduceIte]
  rw [use_of_not_made rfl]

theorem get_of_refused {type : ComponentType} {e : RegistryError}
    (h : s.accessor fullName type = .error e) : s.get fullName type = (s, .error e, []) := by
  simp only [get, h]

theorem get_of_accessor {type : ComponentType} (h : s.accessor fullName type = .ok slot) :
    s.get fullName type = s.use slot := by
  simp only [get, h]

/-! ## Running hooks -/

end State

/-- The notes of what a hook does at shutdown. It finds shutdown triggered. -/
def HookAction.notes : HookAction → List Note
  | .finish | .fail | .panic => []
  | .addHook _ _ rest => rest.notes
  | .trigger rest => .retrigger false :: rest.notes
  | .tellTriggered rest => .triggered true :: rest.notes

def Hook.notes : Hook → List Note
  | .plain name action => .hook name :: action.notes
  | .extra fullName action => .extra fullName :: action.notes
  | .destroy fullName value action => .destroy fullName value :: action.notes
  | .stopTicker _ _ => []

def Hook.stop : Hook → List Ticker → List Ticker
  | .stopTicker _ (some i), tickers => tickers.modify i fun t => { t with stopped := true }
  | _, tickers => tickers

namespace State

variable {s : State}

theorem addHook_of_triggered (h : s.shutdown.triggered = true) (hook : Hook) :
    s.addHook hook = s := by
  simp [addHook, Shutdown.addHook, h]

/-- Once shutdown is triggered, whatever a hook does with it is in vain. -/
theorem runAction_of_triggered (h : s.shutdown.triggered = true) (action : HookAction) :
    (s.runAction action).1 = s ∧ (s.runAction action).2.1 = action.notes := by
  induction action with
  | finish => exact ⟨rfl, rfl⟩
  | fail => exact ⟨rfl, rfl⟩
  | panic => exact ⟨rfl, rfl⟩
  | addHook name added rest _ ih =>
    rw [runAction, addHook_of_triggered h]
    exact ih
  | trigger rest ih =>
    simp only [runAction, Shutdown.begin_of_triggered h, HookAction.notes]
    exact ⟨ih.1, congrArg _ ih.2⟩
  | tellTriggered rest ih =>
    simp only [runAction, h, HookAction.notes]
    exact ⟨ih.1, congrArg _ ih.2⟩

theorem runCallback_of_triggered (h : s.shutdown.triggered = true) (note : Note)
    (action : HookAction) :
    (s.runCallback note action).1 = s ∧
      (s.runCallback note action).2.1 = note :: action.notes := by
  obtain ⟨hafter, hnotes⟩ := runAction_of_triggered h action
  exact ⟨hafter, congrArg _ hnotes⟩

/-- Once shutdown is triggered a hook leaves its notes and stops its ticker, and does no more. -/
theorem runHook_of_triggered (h : s.shutdown.triggered = true) (hook : Hook) :
    (s.runHook hook).1 = { s with tickers := hook.stop s.tickers } ∧
      (s.runHook hook).2.1 = hook.notes := by
  cases hook with
  | plain name action => exact runCallback_of_triggered h _ action
  | extra fullName action => exact runCallback_of_triggered h _ action
  | destroy fullName value action => exact runCallback_of_triggered h _ action
  | stopTicker name index => cases index <;> exact ⟨rfl, rfl⟩

/-- However a hook ends, the next one runs. -/
theorem runEach_cons (hook : Hook) (rest : List Hook) (s : State) :
    runEach (hook :: rest) s =
      ((runEach rest (s.runHook hook).1).1,
        (s.runHook hook).2.1 ++ (runEach rest (s.runHook hook).1).2) := by
  rw [runEach]
  obtain ⟨after, notes, ending⟩ := s.runHook hook
  cases ending <;> rfl

/-- **Hooks run one after another**, and each leaves its notes once. -/
theorem runEach_of_triggered (hooks : List Hook) {s : State} (h : s.shutdown.triggered = true) :
    runEach hooks s =
      ({ s with tickers := hooks.foldl (fun tickers hook => hook.stop tickers) s.tickers },
        hooks.flatMap Hook.notes) := by
  induction hooks generalizing s with
  | nil => rfl
  | cons hook rest ih =>
    obtain ⟨hafter, hnotes⟩ := runHook_of_triggered h hook
    rw [runEach_cons, hafter, hnotes, ih (s := { s with tickers := hook.stop s.tickers }) h]
    rfl

theorem trigger_of_triggered (h : s.shutdown.triggered = true) : s.trigger = (s, false, []) := by
  simp only [trigger, Shutdown.begin_of_triggered h]

theorem trigger_of_not_triggered (h : s.shutdown.triggered = false) :
    s.trigger =
      ({ s with
          shutdown := ⟨[], true, true⟩
          tickers := s.shutdown.hooks.foldl (fun tickers hook => hook.stop tickers) s.tickers },
        true, s.shutdown.hooks.flatMap Hook.notes) := by
  simp only [trigger, runHooks, Shutdown.begin_of_not_triggered h]
  rw [runEach_of_triggered s.shutdown.hooks rfl]
  rfl

/-! ## What leaves the slots alone -/

theorem slots_trigger (s : State) : s.trigger.1.slots = s.slots := by
  cases h : s.shutdown.triggered with
  | true => rw [trigger_of_triggered h]
  | false => rw [trigger_of_not_triggered h]

theorem wait_of_done (h : s.shutdown.done = true) (ms : Nat) : s.wait ms = (s, true) := by
  rw [wait, if_pos h]

/-- Time alone does not get shutdown done. -/
theorem wait_of_not_done (h : s.shutdown.done = false) (ms : Nat) :
    s.wait ms = (s.advance ms, false) := by
  have hafter : (s.advance ms).shutdown.done = false := h
  simp only [wait, h, Bool.false_eq_true, ↓reduceIte, hafter]

theorem slots_wait (s : State) (ms : Nat) : (s.wait ms).1.slots = s.slots := by
  cases h : s.shutdown.done with
  | true => rw [wait_of_done h]
  | false =>
    rw [wait_of_not_done h]
    rfl

theorem shutdown_wait (s : State) (ms : Nat) : (s.wait ms).1.shutdown = s.shutdown := by
  cases h : s.shutdown.done with
  | true => rw [wait_of_done h]
  | false =>
    rw [wait_of_not_done h]
    rfl

end State

end Chassis.Session
