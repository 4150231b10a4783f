import Chassis.Endpoint.Supervisor
import Mathlib.Logic.Relation

/-!
# Which endpoints a shutdown stops

> **a shutdown stops every endpoint if and only if it was triggered after they were started**
> (`Supervisor.allStopped_iff`).

The supervisor leaves the stopping of an endpoint to a hook, and a hook that is added to a shutdown
that was triggered already is dropped. So a trigger that comes first stops nothing: the endpoints
are started all the same and serve on, and if all of them serve there is never a result.

`Step` is what can happen to a supervisor once it runs: a trigger, or the end of an endpoint, which
for one that serves has to wait until it was stopped. `StoppingInv` is what every step preserves.
Its two halves are the two sides of the equivalence: either the hooks are still there or they have
run, or else there never were any.
-/

set_option autoImplicit false

namespace Chassis

open Session

/-! ## Hooks -/

namespace Session.Shutdown

variable {η : Type}

/-- Hooks are added as long as nothing was triggered. -/
theorem foldl_addHook_of_not_triggered (hooks : List η) {s : Shutdown η}
    (h : s.triggered = false) :
    hooks.foldl (·.addHook ·) s = { s with hooks := hooks.reverse ++ s.hooks } := by
  induction hooks generalizing s with
  | nil => rfl
  | cons hook hooks ih =>
    have hadd : s.addHook hook = { s with hooks := hook :: s.hooks } := by simp [addHook, h]
    have hrest := ih (s := { s with hooks := hook :: s.hooks }) h
    rw [List.foldl_cons, hadd, hrest, List.reverse_cons, List.append_assoc]
    rfl

/-- After a trigger hooks are dropped. -/
theorem foldl_addHook_of_triggered (hooks : List η) {s : Shutdown η} (h : s.triggered = true) :
    hooks.foldl (·.addHook ·) s = s := by
  induction hooks with
  | nil => rfl
  | cons hook hooks ih =>
    have hadd : s.addHook hook = s := by simp [addHook, h]
    rw [List.foldl_cons, hadd, ih]

theorem begin_of_not_triggered {s : Shutdown η} (h : s.triggered = false) :
    s.begin = (true, s.hooks, { s with hooks := [], triggered := true }) := by
  simp [begin, h]

theorem begin_of_triggered {s : Shutdown η} (h : s.triggered = true) :
    s.begin = (false, [], s) := by
  simp [begin, h]

theorem triggered_begin (s : Shutdown η) : s.begin.2.2.triggered = true := by
  cases h : s.triggered with
  | false => rw [begin_of_not_triggered h]
  | true => rwa [begin_of_triggered h]

end Session.Shutdown

namespace Supervisor

/-! ## Triggers -/

section

variable {s : Supervisor}

theorem trigger_of_triggered (h : s.shutdown.triggered = true) : s.trigger = (s, false, []) := by
  simp only [trigger, Shutdown.begin_of_triggered h]

theorem trigger_of_not_triggered (h : s.shutdown.triggered = false) :
    s.trigger.1 = { s with
      shutdown := ⟨[], true, true⟩
      stopped := s.stopped ++ s.shutdown.hooks } := by
  simp only [trigger, Shutdown.begin_of_not_triggered h, Shutdown.finish]

theorem endpoints_trigger (s : Supervisor) : s.trigger.1.endpoints = s.endpoints := by
  cases h : s.shutdown.triggered with
  | true => rw [trigger_of_triggered h]
  | false => rw [trigger_of_not_triggered h]

theorem ended_trigger (s : Supervisor) : s.trigger.1.ended = s.ended := by
  cases h : s.shutdown.triggered with
  | true => rw [trigger_of_triggered h]
  | false => rw [trigger_of_not_triggered h]

/-- A trigger takes back no stop. -/
theorem mem_stopped_trigger {i : Nat} (h : i ∈ s.stopped) : i ∈ s.trigger.1.stopped := by
  cases htriggered : s.shutdown.triggered with
  | true => rwa [trigger_of_triggered htriggered]
  | false =>
    rw [trigger_of_not_triggered htriggered]
    exact List.mem_append_left _ h

end

/-! ## Steps -/

/-- What can happen while endpoints run. An endpoint that serves ends only when it was stopped. -/
inductive Step : Supervisor → Supervisor → Prop
  | trigger (s : Supervisor) : Step s s.trigger.1
  | finish {s : Supervisor} {i : Nat} {e : Supervised} (known : s.endpoints[i]? = some e)
      (running : i ∉ s.ended) (stopped : e.behaviour = .serves → i ∈ s.stopped) :
      Step s (s.finish i)

/-- What can come of a supervisor. -/
abbrev Reaches : Supervisor → Supervisor → Prop := Relation.ReflTransGen Step

/-- The shutdown that the supervisor is given: already triggered, or not yet. -/
def given (early : Bool) (shutdown : Shutdown Nat) : Shutdown Nat :=
  if early then shutdown.begin.2.2 else shutdown

/-- All endpoints were stopped: none serves on, and the result is that it was closed unless an
endpoint ended by itself first. -/
structure AllStopped (s : Supervisor) : Prop where
  stopped : ∀ i < s.endpoints.length, i ∈ s.stopped
  ends : ∀ i < s.endpoints.length, i ∉ s.ended → Step s (s.finish i)
  result : s.endpoints ≠ [] → ∀ r, s.result = some r → r = .error .closed ∨
    ∃ i e, s.ended.head? = some i ∧ s.endpoints[i]? = some e ∧ e.behaviour ≠ .serves

/-! ## Runs in time -/

theorem getElem?_of_earliest : ∀ {times : List (Option Nat)} {first t i : Nat},
    earliest first times = some (t, i) → first ≤ i ∧ times[i - first]? = some (some t)
  | none :: rest, first, t, i, h => by
    have h : earliest (first + 1) rest = some (t, i) := h
    obtain ⟨hle, hget⟩ := getElem?_of_earliest h
    refine ⟨by omega, ?_⟩
    rwa [show i - first = i - (first + 1) + 1 by omega, List.getElem?_cons_succ]
  | some u :: rest, first, t, i, h => by
    have hfirst : some (u, first) = some (t, i) →
        first ≤ i ∧ (some u :: rest)[i - first]? = some (some t) := by
      intro he
      obtain ⟨rfl, rfl⟩ := Prod.mk.inj (Option.some.inj he)
      simp
    simp only [earliest] at h
    cases hrest : earliest (first + 1) rest with
    | none =>
      rw [hrest] at h
      exact hfirst h
    | some best =>
      obtain ⟨v, j⟩ := best
      simp only [hrest] at h
      split at h
      · obtain ⟨rfl, rfl⟩ := Prod.mk.inj (Option.some.inj h)
        obtain ⟨hle, hget⟩ := getElem?_of_earliest hrest
        refine ⟨by omega, ?_⟩
        rwa [show j - first = j - (first + 1) + 1 by omega, List.getElem?_cons_succ]
      · exact hfirst h

/-- The endpoint that ends first in time is one that was started, and if it serves it was
stopped. -/
theorem known_of_firstEnd {s : Supervisor} {stoppedAt : Option Nat} {t i : Nat}
    (h : s.firstEnd stoppedAt = some (t, i)) :
    ∃ e, s.endpoints[i]? = some e ∧ (e.behaviour = .serves → i ∈ s.stopped) := by
  obtain ⟨h, -⟩ := Option.filter_eq_some_iff.1 h
  obtain ⟨-, hget⟩ := getElem?_of_earliest h
  rw [Nat.sub_zero, List.getElem?_map, List.getElem?_zipIdx, Option.map_map] at hget
  obtain ⟨e, he, htime⟩ := Option.map_eq_some_iff.1 hget
  refine ⟨e, he, fun hserves => ?_⟩
  simp only [Function.comp, Nat.zero_add, Supervised.endTime, hserves] at htime
  by_cases hi : i ∈ s.stopped
  · exact hi
  · simp [hi] at htime

/-- The endpoint that ends first in time may end. -/
theorem step_of_firstEnd {s : Supervisor} {stoppedAt : Option Nat} {t i : Nat}
    (hended : s.ended = []) (h : s.firstEnd stoppedAt = some (t, i)) : Step s (s.finish i) := by
  obtain ⟨e, he, hstopped⟩ := known_of_firstEnd h
  exact .finish he (by simp [hended]) hstopped

/-- What is reported in time is what some steps lead to. -/
theorem reaches_run (endpoints : List Supervised) (shutdown : Shutdown Nat)
    (triggerAt : Option Nat) :
    Reaches (start endpoints shutdown).1 (run endpoints shutdown triggerAt).supervisor := by
  rw [run]
  simp only
  split
  · exact .refl
  · cases triggerAt with
    | none =>
      cases h : (start endpoints shutdown).1.firstEnd none with
      | none => exact .refl
      | some e => exact .single (step_of_firstEnd rfl h)
    | some t =>
      simp only
      split
      -- An endpoint ended before the trigger, or the trigger comes too late to be seen.
      · cases h : (start endpoints shutdown).1.firstEnd none with
        | none => exact .refl
        | some e => exact .single (step_of_firstEnd rfl h)
      · have htrigger := Step.trigger (start endpoints shutdown).1
        cases h : (start endpoints shutdown).1.trigger.1.firstEnd (some t) with
        | none => exact .single htrigger
        | some e => exact .tail (.single htrigger) (step_of_firstEnd (ended_trigger _) h)

/-! ## The invariant -/

/-- What is so in every state of a run. -/
structure StoppingInv (endpoints : List Supervised) (early : Bool) (s : Supervisor) : Prop where
  endpoints_eq : s.endpoints = endpoints
  late : early = false →
    (s.shutdown.triggered = false ∧ ∀ i < endpoints.length, i ∈ s.shutdown.hooks) ∨
      ∀ i < endpoints.length, i ∈ s.stopped
  early : early = true → s.shutdown.triggered = true ∧ s.stopped = []
  ended : ∀ i ∈ s.ended, ∃ e, endpoints[i]? = some e ∧ (e.behaviour = .serves → i ∈ s.stopped)

namespace StoppingInv

variable {endpoints : List Supervised} {early : Bool} {s s' : Supervisor}

theorem start {shutdown : Shutdown Nat} (hfresh : shutdown.triggered = false) :
    StoppingInv endpoints early (Supervisor.start endpoints (given early shutdown)).1 where
  endpoints_eq := rfl
  late := by
    rintro rfl
    refine .inl ?_
    have hadded := Shutdown.foldl_addHook_of_not_triggered (List.range endpoints.length) hfresh
    simp only [Supervisor.start, given, Bool.false_eq_true, ↓reduceIte, hadded]
    refine ⟨hfresh, fun i hi => ?_⟩
    exact List.mem_append_left _ (List.mem_reverse.2 (List.mem_range.2 hi))
  early := by
    rintro rfl
    have htriggered := shutdown.triggered_begin
    have hdropped := Shutdown.foldl_addHook_of_triggered (List.range endpoints.length) htriggered
    simp only [Supervisor.start, given, ↓reduceIte, hdropped]
    exact ⟨htriggered, trivial⟩
  ended := by
    intro i hi
    cases hi

theorem trigger (h : StoppingInv endpoints early s) :
    StoppingInv endpoints early s.trigger.1 where
  endpoints_eq := (endpoints_trigger s).trans h.endpoints_eq
  late := by
    intro hearly
    rcases h.late hearly with ⟨hfresh, hhooks⟩ | hstopped
    · rw [trigger_of_not_triggered hfresh]
      exact .inr fun i hi => List.mem_append_right _ (hhooks i hi)
    · exact .inr fun i hi => mem_stopped_trigger (hstopped i hi)
  early := by
    intro hearly
    rw [trigger_of_triggered (h.early hearly).1]
    exact h.early hearly
  ended := by
    intro i hi
    rw [ended_trigger] at hi
    obtain ⟨e, he, hs⟩ := h.ended i hi
    exact ⟨e, he, fun hserves => mem_stopped_trigger (hs hserves)⟩

theorem step (h : StoppingInv endpoints early s) (hstep : Step s s') :
    StoppingInv endpoints early s' := by
  cases hstep with
  | trigger => exact h.trigger
  | @finish i e known running stopped =>
    refine ⟨h.endpoints_eq, h.late, h.early, fun j hj => ?_⟩
    rcases List.mem_append.1 hj with hj | hj
    · exact h.ended j hj
    · obtain rfl := List.mem_singleton.1 hj
      exact ⟨e, h.endpoints_eq ▸ known, stopped⟩

theorem reaches (h : StoppingInv endpoints early s) (hrun : Reaches s s') :
    StoppingInv endpoints early s' := by
  induction hrun with
  | refl => exact h
  | tail _ hstep ih => exact ih.step hstep

/-- Where all were stopped, all come to an end. -/
theorem allStopped (h : StoppingInv endpoints early s)
    (hstopped : ∀ i < endpoints.length, i ∈ s.stopped) : AllStopped s where
  stopped := by rwa [h.endpoints_eq]
  ends := by
    intro i hi hrunning
    have hknown : s.endpoints[i]? = some s.endpoints[i] := List.getElem?_eq_getElem hi
    exact .finish hknown hrunning fun _ => hstopped i (h.endpoints_eq ▸ hi)
  result := by
    intro hne r hr
    have hempty : s.endpoints.isEmpty = false := by simpa using hne
    simp only [result, hempty, Bool.false_eq_true, ↓reduceIte] at hr
    obtain ⟨i, hi, hr⟩ := Option.bind_eq_some_iff.1 hr
    obtain ⟨e, he, rfl⟩ := Option.map_eq_some_iff.1 hr
    by_cases hserves : e.behaviour = .serves
    · refine .inl ?_
      rw [Supervised.result, hserves]
    · exact .inr ⟨i, e, hi, he, hserves⟩

end StoppingInv

/-! ## Early and late triggers -/

variable {endpoints : List Supervised} {shutdown : Shutdown Nat} {early : Bool} {s : Supervisor}

/-- After an early trigger no endpoint is ever stopped, and endpoints that serve never end. -/
theorem serves_on (h : StoppingInv endpoints true s)
    (hserve : ∀ e ∈ endpoints, e.behaviour = .serves) (hne : endpoints ≠ []) : s.result = none := by
  obtain ⟨-, hstopped⟩ := h.early rfl
  have hended : s.ended = [] := by
    refine List.eq_nil_iff_forall_not_mem.2 fun i hi => ?_
    obtain ⟨e, he, hs⟩ := h.ended i hi
    have hi : i ∈ s.stopped := hs (hserve e (List.mem_of_getElem? he))
    rw [hstopped] at hi
    cases hi
  have hempty : s.endpoints.isEmpty = false := by simpa [h.endpoints_eq] using hne
  simp only [result, hempty, Bool.false_eq_true, ↓reduceIte, hended, List.head?_nil,
    Option.bind_none]

/-- **A shutdown stops every endpoint if and only if it was triggered after they were started**, or
if there are none. A trigger that comes before stops not one of them, ever, and if they all serve
there is never a result. -/
theorem allStopped_iff (endpoints : List Supervised) (shutdown : Shutdown Nat)
    (hfresh : shutdown.triggered = false) (early : Bool) {s : Supervisor}
    (hrun : Reaches (start endpoints (given early shutdown)).1 s)
    (htriggered : s.shutdown.triggered = true) :
    (AllStopped s ↔ early = false ∨ endpoints = []) ∧
      (early = true → s.stopped = [] ∧
        ((∀ e ∈ endpoints, e.behaviour = .serves) → endpoints ≠ [] → s.result = none)) := by
  have h : StoppingInv endpoints early s := (StoppingInv.start hfresh).reaches hrun
  refine ⟨⟨fun hall => ?_, fun hwhen => ?_⟩, ?_⟩
  · cases early with
    | false => exact .inl rfl
    | true =>
      -- Nothing was stopped, so there was nothing to be stopped.
      refine .inr (List.eq_nil_of_length_eq_zero (Nat.eq_zero_of_not_pos fun hpos => ?_))
      have hmem : 0 ∈ s.stopped := hall.stopped 0 (h.endpoints_eq ▸ hpos)
      rw [(h.early rfl).2] at hmem
      cases hmem
  · rcases hwhen with hlate | hnone
    -- The shutdown was triggered by now, so the hooks have run.
    · rcases h.late hlate with ⟨hfresh, -⟩ | hstopped
      · rw [htriggered] at hfresh
        cases hfresh
      · exact h.allStopped hstopped
    · refine h.allStopped fun i hi => ?_
      rw [hnone] at hi
      cases hi
  · rintro rfl
    exact ⟨(h.early rfl).2, serves_on h⟩

/-- An endpoint that serves, under a shutdown that is triggered first, and under one that is
triggered after five milliseconds. -/
theorem allStopped_iff_serving :
    let endpoint : Supervised := { name := "a", behaviour := .serves }
    let early := run [endpoint] (given true {}) none
    let late := run [endpoint] (given false {}) (some 5)
    ¬ AllStopped early.supervisor ∧ early.result = none ∧
      AllStopped late.supervisor ∧ late.result = some (.error .closed) := by
  intro endpoint early late
  obtain ⟨hearly, hnone⟩ := allStopped_iff [endpoint] {} rfl true
    (reaches_run [endpoint] (given true {}) none) rfl
  obtain ⟨hlate, -⟩ := allStopped_iff [endpoint] {} rfl false
    (reaches_run [endpoint] (given false {}) (some 5)) rfl
  refine ⟨fun h => ?_, (hnone rfl).2 ?_ (by simp), hlate.2 (.inl rfl), rfl⟩
  · rcases hearly.1 h with h | h <;> cases h
  · intro e he
    obtain rfl := List.mem_singleton.1 he
    rfl

/-- Not every trigger stops the endpoints that are started. -/
theorem not_allStopped_of_early_trigger :
    ¬ ∀ (endpoints : List Supervised) (early : Bool) (s : Supervisor),
      Reaches (start endpoints (given early {})).1 s → s.shutdown.triggered = true →
        AllStopped s := by
  intro h
  have hall := h [{ name := "a", behaviour := .serves }] true _ .refl rfl
  exact absurd (hall.stopped 0 (by decide)) (by decide)

end Supervisor

end Chassis
