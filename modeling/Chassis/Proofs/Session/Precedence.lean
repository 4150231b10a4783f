import Chassis.Proofs.Session.Teardown

/-!
# A component is destroyed before what its callback added is undone

> **the first trigger destroys a component right before the hooks that its callback added, so these
> come first for a component whose callback added none, and for no other**
> (`destroyed_right_before`).

Hooks run the latest first, and a component is made in two steps: its callback is told of it, and
then the hook that destroys it is added. So what the callback starts on it, a ticker say, has its
hook there before that one, and at shutdown the component goes first. The mirror is one of
components, and not of what is done within one of them (`not_always_undoneFirst`).

All hooks of one component stand together (`exists_hooksAdded_eq`): they are added in one turn, and
no other turn adds hooks in its name.
-/

set_option autoImplicit false

namespace Chassis.Session

/-! ## Whose hook it is -/

namespace Hook

/-- The component in whose name a hook was added. -/
def owner? : Hook → Option String
  | .extra fullName _ => some fullName
  | .destroy fullName _ _ => some fullName
  | .stopTicker fullName none => some fullName
  | _ => none

def isDestroy : Hook → Bool
  | .destroy _ _ _ => true
  | _ => false

/-- The hook destroys the component with a name. -/
def Destroys (hook : Hook) (fullName : String) : Prop :=
  hook.owner? = some fullName ∧ hook.isDestroy = true

/-- The hook was added by the callback that was told of the component with a name. -/
def OfCallback (hook : Hook) (fullName : String) : Prop :=
  hook.owner? = some fullName ∧ hook.isDestroy = false

end Hook

/-- Of the hooks that run in this order, those that the callback of a component added come before
the one that destroys it. -/
def UndoneFirst (fullName : String) (hooks : List Hook) : Prop :=
  hooks.Pairwise fun earlier later => earlier.Destroys fullName → ¬ later.OfCallback fullName

theorem ofCallback_of_mem_announce {fullName : String} {value : Component}
    {action : CreatedAction} {hook : Hook}
    (h : hook ∈ (State.announce fullName value action).2.1) : hook.OfCallback fullName := by
  induction action with
  | finish => cases h
  | panic => cases h
  | note rest ih => exact ih h
  | addHook added rest ih =>
    rcases List.mem_cons.1 h with rfl | h
    · exact ⟨rfl, rfl⟩
    · exact ih h
  | probe rest ih =>
    rcases List.mem_append.1 h with hprobe | h
    · cases value with
      | client c =>
        rw [State.probeHooks] at hprobe
        split at hprobe
        · rw [List.mem_singleton.1 hprobe]
          exact ⟨rfl, rfl⟩
        · cases hprobe
      | _ => cases hprobe
    · exact ih h

namespace Slot

variable {slot : Slot} {value : Component} {hook : Hook}

theorem ofCallback_of_mem_announcement (h : hook ∈ (slot.announcement value).2.1) :
    hook.OfCallback slot.fullName := by
  rw [announcement] at h
  cases haction : slot.recipe.onCreated with
  | none =>
    rw [haction] at h
    cases h
  | some action =>
    rw [haction] at h
    exact ofCallback_of_mem_announce h

/-- A component that was made with success adds the hooks of its callback, and then the one that
destroys it. -/
theorem hooks_of_result (h : slot.result = .ok value) :
    slot.hooks = (slot.announcement value).2.1 ++ slot.destroyHook value := by
  rw [result, Recipe.result] at h
  rw [hooks]
  cases hcreate : slot.recipe.create slot.source with
  | error reason =>
    rw [hcreate] at h
    cases h
  | ok made =>
    rw [hcreate] at h
    cases hpanics : slot.recipe.panics with
    | true =>
      rw [hpanics] at h
      cases h
    | false =>
      rw [hpanics] at h
      cases h
      rfl

theorem owner?_of_mem_hooks (h : hook ∈ slot.hooks) : hook.owner? = some slot.fullName := by
  rw [hooks] at h
  split at h
  · cases h
  · rcases List.mem_append.1 h with h | h
    · exact (ofCallback_of_mem_announcement h).1
    · split at h
      · cases h
      · obtain ⟨action, -, rfl⟩ := List.mem_map.1 h
        rfl

end Slot

/-! ## The hooks of one component -/

section Owner

variable {past : List Action} {a : Action} {slot : Slot} {hook : Hook} {fullName : String}

/-- A hook in the name of a component is added in the turn that makes it. -/
theorem makes?_of_mem_hooks (h : hook ∈ a.hooks past) (howner : hook.owner? = some fullName) :
    ∃ slot, a.makes? past = some slot ∧ slot.fullName = fullName := by
  have hmade (h : hook ∈ (a.makes? past).elim [] fun slot => slot.hooks.reverse) :
      ∃ slot, a.makes? past = some slot ∧ slot.fullName = fullName := by
    cases hmakes : a.makes? past with
    | none =>
      rw [hmakes] at h
      cases h
    | some slot =>
      rw [hmakes] at h
      have hslot := Slot.owner?_of_mem_hooks (List.mem_reverse.1 h)
      exact ⟨slot, rfl, Option.some.inj (hslot.symm.trans howner)⟩
  cases a with
  | addHook name action =>
    rw [List.mem_singleton.1 h] at howner
    cases howner
  | startTicker name period =>
    rw [List.mem_singleton.1 h] at howner
    cases howner
  | register label recipe source lazy => exact hmade h
  | get name type => exact hmade h
  | _ => cases h

theorem wasAsked_of_mem_hooksAdded (h : hook ∈ hooksAdded past)
    (howner : hook.owner? = some fullName) : wasAsked past fullName = true := by
  induction past with
  | nil => cases h
  | cons a past ih =>
    rw [wasAsked, Bool.or_eq_true_iff]
    rcases List.mem_append.1 h with hnew | hold
    · obtain ⟨slot, hmakes, rfl⟩ := makes?_of_mem_hooks hnew howner
      right
      rw [(makes?_eq_some_iff.1 hmakes).1]
      exact beq_self_eq_true slot.fullName
    · exact .inl (ih hold)

theorem hooks_of_makes? (h : a.makes? past = some slot) : a.hooks past = slot.hooks.reverse := by
  cases a with
  | register label recipe source lazy => simp [Action.hooks, h]
  | get name type => simp [Action.hooks, h]
  | _ => cases h

/-- **The hooks of a component stand together**, the latest first, and no others are in its name. -/
theorem exists_hooksAdded_eq (h : slot ∈ made past) :
    ∃ newer older, hooksAdded past = newer ++ (slot.hooks.reverse ++ older) ∧
      ∀ hook ∈ newer ++ older, hook.owner? ≠ some slot.fullName := by
  induction past with
  | nil => cases h
  | cons a past ih =>
    rcases List.mem_append.1 h with hnew | hold
    · -- The turn that makes the component is the first that is asked for it.
      have hmakes : a.makes? past = some slot := Option.mem_toList.1 hnew
      have hfirst := (makes?_eq_some_iff.1 hmakes).2
      refine ⟨[], hooksAdded past, ?_, fun hook hmem howner => ?_⟩
      · rw [hooksAdded, hooks_of_makes? hmakes, List.nil_append]
      · rw [wasAsked_of_mem_hooksAdded hmem howner] at hfirst
        cases hfirst
    · obtain ⟨newer, older, hadded, hothers⟩ := ih hold
      have hasked := ((mem_made_iff past slot).1 hold).2
      refine ⟨a.hooks past ++ newer, older, ?_, fun hook hmem howner => ?_⟩
      · rw [hooksAdded, hadded, List.append_assoc]
      · rw [List.append_assoc] at hmem
        rcases List.mem_append.1 hmem with hmem | hmem
        · obtain ⟨other, hmakes, hname⟩ := makes?_of_mem_hooks hmem howner
          have hfirst := (makes?_eq_some_iff.1 hmakes).2
          rw [hname, hasked] at hfirst
          cases hfirst
        · exact hothers hook hmem howner

end Owner

/-- Behind the hook that destroys a component, none of its callback's is left only if there are
none. -/
theorem undoneFirst_iff {fullName : String} {value : Component} {action : HookAction}
    {newer added older : List Hook} (hadded : ∀ hook ∈ added, hook.OfCallback fullName)
    (hothers : ∀ hook ∈ newer ++ older, hook.owner? ≠ some fullName) :
    UndoneFirst fullName (newer ++ .destroy fullName value action :: (added ++ older)) ↔
      added = [] := by
  constructor
  · intro h
    have hbehind := (List.pairwise_cons.1 (List.pairwise_append.1 h).2.1).1
    refine List.eq_nil_iff_forall_not_mem.2 fun hook hmem => ?_
    exact hbehind hook (List.mem_append_left _ hmem) ⟨rfl, rfl⟩ (hadded hook hmem)
  · rintro rfl
    have hnone : ∀ hook ∈ newer ++ .destroy fullName value action :: older,
        ¬ hook.OfCallback fullName := by
      rintro hook hmem ⟨howner, hdestroy⟩
      rcases List.mem_append.1 hmem with hmem | hmem
      · exact hothers hook (List.mem_append_left _ hmem) howner
      · rcases List.mem_cons.1 hmem with rfl | hmem
        · cases hdestroy
        · exact hothers hook (List.mem_append_right _ hmem) howner
    exact List.pairwise_of_forall_mem_list fun _ _ later hlater _ => hnone later hlater

/-- **The first trigger destroys a component right before the hooks that its callback added.** They
run the latest first, all of them behind it, and nothing else runs in between. So the callback's
hooks have run when the component is destroyed if and only if it added none. -/
theorem destroyed_right_before {before : List Action} {slot : Slot} {value : Component}
    {action : HookAction} (htriggered : wasTriggered before = false)
    (hregistered : registered? before slot.fullName = some slot)
    (hasked : wasAsked before slot.fullName = true) (hresult : slot.result = .ok value)
    (hdestroy : slot.recipe.onDestroy = some action) :
    let added := (slot.announcement value).2.1
    let destroy := Hook.destroy slot.fullName value action
    (∀ hook ∈ added, hook.OfCallback slot.fullName) ∧
    (∃ newer older,
      (run before).shutdown.hooks = newer ++ destroy :: (added.reverse ++ older) ∧
      (∀ hook ∈ newer ++ older, hook.owner? ≠ some slot.fullName) ∧
      (turn before .trigger).notes =
        newer.flatMap Hook.notes ++ (destroy.notes ++
          (added.reverse.flatMap Hook.notes ++ older.flatMap Hook.notes))) ∧
    (UndoneFirst slot.fullName (run before).shutdown.hooks ↔ added = []) := by
  intro added destroy
  have hadded : ∀ hook ∈ added, hook.OfCallback slot.fullName :=
    fun hook hmem => Slot.ofCallback_of_mem_announcement hmem
  obtain ⟨newer, older, hall, hothers⟩ :=
    exists_hooksAdded_eq ((mem_made_iff before slot).2 ⟨hregistered, hasked⟩)
  have hslot : slot.hooks = added ++ [destroy] := by
    rw [Slot.hooks_of_result hresult, Slot.destroyHook, hdestroy]
    rfl
  have hhooks : hooksAdded before = newer ++ destroy :: (added.reverse ++ older) := by
    rw [hall, hslot, List.reverse_append]
    rfl
  have hrun : (run before).shutdown.hooks = newer ++ destroy :: (added.reverse ++ older) := by
    rw [shutdown_run, htriggered, ← hhooks]
    rfl
  refine ⟨hadded, ⟨newer, older, hrun, hothers, ?_⟩, ?_⟩
  · rw [notes_trigger, htriggered, if_neg Bool.false_ne_true, hhooks, List.flatMap_append,
      List.flatMap_cons, List.flatMap_append]
  · have hreverse : ∀ hook ∈ added.reverse, hook.OfCallback slot.fullName :=
      fun hook hmem => hadded hook (List.mem_reverse.1 hmem)
    rw [hrun, undoneFirst_iff hreverse hothers, List.reverse_eq_nil_iff]

/-- A recipe for a text whose callback adds a hook. -/
def Recipe.withHook (name content : String) (added onDestroy : HookAction) : Recipe where
  name
  type := .text
  create _ := .ok (.text content)
  onCreated := some (.note (.addHook added .finish))
  onDestroy := some onDestroy

/-- Two components whose callbacks add hooks, one that panics and one that fails, with a hook of
nobody's in between. -/
def tangled : List Action :=
  [.get "Cache (a)" .text, .addHook "flush" .fail,
    .register "b" (.withHook "Store" "s" .panic .finish) (.empty "b") false,
    .register "a" (.withHook "Cache" "c" .finish .fail) (.empty "a") true]

theorem destroyed_right_before_tangled :
    let slot : Slot := ⟨"Store (b)", .withHook "Store" "s" .panic .finish, .empty "b", none⟩
    wasTriggered tangled = false ∧ registered? tangled slot.fullName = some slot ∧
      wasAsked tangled slot.fullName = true ∧ slot.result = .ok (.text "s") ∧
      slot.recipe.onDestroy = some .finish ∧
      (turn tangled .trigger).notes =
        [.destroy "Cache (a)" (.text "c"), .extra "Cache (a)", .hook "flush",
          .destroy "Store (b)" (.text "s"), .extra "Store (b)"] ∧
      ¬ UndoneFirst slot.fullName (run tangled).shutdown.hooks := by
  intro slot
  obtain ⟨-, -, hfirst⟩ :=
    @destroyed_right_before tangled slot (.text "s") .finish rfl rfl rfl rfl rfl
  exact ⟨rfl, rfl, rfl, rfl, rfl, by decide, fun h => nomatch hfirst.1 h⟩

/-- What the callback of a component added is not always undone before the component is
destroyed. -/
theorem not_always_undoneFirst :
    ¬ ∀ (before : List Action) (slot : Slot) (value : Component),
      wasTriggered before = false → registered? before slot.fullName = some slot →
        wasAsked before slot.fullName = true → slot.result = .ok value →
          slot.recipe.onDestroy.isSome = true →
            UndoneFirst slot.fullName (run before).shutdown.hooks := by
  intro h
  let slot : Slot := ⟨"Db (main)", .withHook "Db" "db" .finish .finish, .empty "main", none⟩
  let before : List Action := [.register "main" slot.recipe slot.source false]
  have hhooks : (run before).shutdown.hooks =
      [.destroy "Db (main)" (.text "db") .finish, .extra "Db (main)" .finish] := rfl
  have hfirst := h before slot (.text "db") rfl rfl rfl rfl rfl
  rw [hhooks] at hfirst
  exact (List.pairwise_cons.1 hfirst).1 _ List.mem_cons_self ⟨rfl, rfl⟩ ⟨rfl, rfl⟩

end Chassis.Session
